import AMSServer.FileLog
import AMSServer.Foundations.Http
import AMSServer.HttpData.Isolation
import AMSServer.HttpData.State
import AMSServer.HttpServer.Bounds
import AMSServer.HttpServer.Exchange
import AMSServer.HttpServer.Lines
import AMSServer.HttpServer.Reassembly
import AMSServer.HttpServer.Residue
import AMSServer.HttpServer.Segmentation
import AMSServer.HttpServer.Target
import AMSServer.IOCPServer.AcceptSlots
import AMSServer.IOCPServer.Conservation
import AMSServer.IOCPServer.Drain
import AMSServer.IOCPServer.Exclusive
import AMSServer.IOCPServer.Leaks
import AMSServer.IOCPServer.Limits
import AMSServer.IOCPServer.Receives
import AMSServer.IOCPServer.Shutdown
import AMSServer.IOCPServer.Turns
import AMSServer.MFCAPP
import AMSServer.MFCMainGUI
import AMSServer.MySqlHttpData.Bounds
import AMSServer.MySqlHttpData.Calls
import AMSServer.MySqlHttpData.Catalogue
import AMSServer.MySqlHttpData.Counts
import AMSServer.MySqlHttpData.Details
import AMSServer.MySqlHttpData.Service
