import WebToken.Token.Script
import WebToken.Proofs.Base64Url.Canonical
import WebToken.Proofs.Curve.Acceptance
import WebToken.Proofs.Ecdsa.PublicHalf
import WebToken.Proofs.Jwk.Incomplete
import WebToken.Proofs.Jwk.Written
import WebToken.Proofs.Rsa.Acceptance
import WebToken.Proofs.Rsa.PrimeFactors
import WebToken.Proofs.Rsa.UniqueSignature
import WebToken.Proofs.Token.Bare
import WebToken.Proofs.Token.BreakingOff
import WebToken.Proofs.Token.Claims
import WebToken.Proofs.Token.Explained
import WebToken.Proofs.Token.Fitting
import WebToken.Proofs.Token.Limits
import WebToken.Proofs.Token.Malformed
import WebToken.Proofs.Token.Numbers
import WebToken.Proofs.Token.Refusal
import WebToken.Proofs.Token.Secrecy
import WebToken.Proofs.Token.SettingNumbers
import WebToken.Proofs.Token.Signing
import WebToken.Proofs.Token.SigningAnew
import WebToken.Proofs.Token.Unambiguous
import WebToken.Proofs.Token.Withdrawal
