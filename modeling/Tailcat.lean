import Tailcat.Tcp.Idle
import Tailcat.Derp.Reception
import Tailcat.Derp.Identity
import Tailcat.Wg.Replay
import Tailcat.Wg.Agreement
import Tailcat.Wg.Nonces
import Tailcat.Wg.Inert
import Tailcat.Net.PathProbes
import Tailcat.Net.PathChoice
import Tailcat.Ssh.Progress
import Tailcat.Ssh.Replies
import Tailcat.Ssh.Gate
import Tailcat.Ssh.Link
import Tailcat.Ssh.Sftp
import Tailcat.Ssh.Dropbox
import Tailcat.Tcp.Damaged
import Tailcat.Proxy.Delivery
import Tailcat.Proxy.References
import Tailcat.Net.UdpBindings
import Tailcat.Shquote
import Tailcat.Addr.Roundtrip
import Tailcat.Json.Encoding
import Tailcat.Crypto.Xsalsa20
import Tailcat.Keyfile.Roundtrip
