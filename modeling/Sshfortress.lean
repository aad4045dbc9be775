import Sshfortress.Session.Exec
import Sshfortress.Sftp.Audit
import Sshfortress.Channel.Isolation
import Sshfortress.Auth.Methods
import Sshfortress.Monitor.Pwnam
import Sshfortress.Packet.Order
import Sshfortress.Sftp.Framing
import Sshfortress.Channel.Opens
import Sshfortress.Auth.Users
import Sshfortress.Monitor.LoginName
import Sshfortress.Channel.CommandLiteral
import Sshfortress.Channel.History
import Sshfortress.Channel.Erase
import Sshfortress.Channel.Transcript
import Sshfortress.Channel.Timing
import Sshfortress.Channel.Keystrokes
import Sshfortress.Channel.Transfer
import Sshfortress.SftpClient.Download
import Sshfortress.SftpClient.Upload
import Sshfortress.SftpClient.Tree
import Sshfortress.Sftp.Attributes
import Sshfortress.Packet.Volume
import Sshfortress.Packet.Lengths
import Sshfortress.Packet.Discard
import Sshfortress.Packet.Serial
import Sshfortress.Channel.Datagrams
import Sshfortress.Channel.Cuts
import Sshfortress.Buffer.Bignum
import Sshfortress.Krl.Serials
import Sshfortress.Monitor.Signing
import Sshfortress.Hostfile.Verdict
import Sshfortress.SftpClient.Arguments
import Sshfortress.Agent.Requests
import Sshfortress.Agent.Expiry
import Sshfortress.Client.Escapes
import Sshfortress.Channel.Scrolling
import Sshfortress.Session.Table
import Sshfortress.Kex.Moduli
import Sshfortress.Misc.Atomicio
import Sshfortress.Channel.Descriptors
import Sshfortress.Kex.Names
import Sshfortress.Channel.Agreement
import Sshfortress.Channel.Hostile
import Sshfortress.Krl.Order
import Sshfortress.Sftp.MainLoop
