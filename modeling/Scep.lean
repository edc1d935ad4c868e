import Scep.Der.Bytes
import Scep.Der.Value
import Scep.Der.Primitive
import Scep.Crypto.Cipher
import Scep.Crypto.Rsa
import Scep.X509
import Scep.Cms.Syntax
import Scep.Cms.Read
import Scep.Builder.Config
import Scep.Builder.Finalize
import Scep.Builder.Run
import Scep.Builder.Message
import Scep.Builder.View
import Scep.Builder.Reorder
import Scep.Builder.Errors
import Scep.Builder.Envelope
import Scep.Builder.Receive
import Scep.Builder.Degenerate
