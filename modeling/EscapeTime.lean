import EscapeTime.Files.Tree
import EscapeTime.Main
import EscapeTime.Proofs.Command.Compile
import EscapeTime.Proofs.Formula.Idempotence
import EscapeTime.Proofs.Formula.Layout
import EscapeTime.Proofs.Formula.Numerals
import EscapeTime.Proofs.Formula.RawBytes
import EscapeTime.Proofs.Formula.RoundTrip
import EscapeTime.Proofs.Formula.Termination
import EscapeTime.Proofs.Formula.TokenColumns
import EscapeTime.Proofs.Orbit.Batch
import EscapeTime.Proofs.Orbit.Bookkeeping
import EscapeTime.Proofs.Orbit.Return
import EscapeTime.Proofs.Picture.Gradient
import EscapeTime.Proofs.Picture.Picture
import EscapeTime.Proofs.Settings.Radius
import EscapeTime.Proofs.Shader.Agreement
import EscapeTime.Proofs.Shader.Closure
import EscapeTime.Proofs.Shader.HelperMeaning
import EscapeTime.Proofs.Shader.HelperScan
import EscapeTime.Proofs.Shader.Numbers
import EscapeTime.Proofs.Shader.ReadBack
import EscapeTime.Proofs.Shader.Splitting
