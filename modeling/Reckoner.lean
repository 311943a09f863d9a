import Reckoner.Desk.Run
import Reckoner.Expr.Fault
import Reckoner.Main
import Reckoner.Proofs.Desk.Accounting
import Reckoner.Proofs.Desk.HitLaw
import Reckoner.Proofs.Desk.Permutation
import Reckoner.Proofs.Desk.Refusals
import Reckoner.Proofs.Evaluation
import Reckoner.Proofs.Expr.Bookkeeping
import Reckoner.Proofs.Expr.Equality
import Reckoner.Proofs.Expr.FirstFault
import Reckoner.Proofs.Expr.Locality
import Reckoner.Proofs.Expr.ReadBack
import Reckoner.Proofs.Expr.Replacement
import Reckoner.Proofs.Memo.Inclusion
import Reckoner.Proofs.Memo.Retention
import Reckoner.Proofs.Number.ReadBack
import Reckoner.Proofs.Session.Interruption
import Reckoner.Proofs.Settings.Variables
import Reckoner.Proofs.Token.Foreign
import Reckoner.Proofs.Token.Respacing
import Reckoner.Proofs.Token.Written
