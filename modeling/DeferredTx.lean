import DeferredTx.Main
import DeferredTx.Proofs.Agreement
import DeferredTx.Proofs.Session.Orderly
import DeferredTx.Proofs.Session.Rollback
import DeferredTx.Proofs.Statement.ByPieces
import DeferredTx.Proofs.Session.Journal
import DeferredTx.Proofs.Session.PassThrough
import DeferredTx.Proofs.Session.Dependable
import DeferredTx.Proofs.Session.Transparent
import DeferredTx.Proofs.Session.Failure
import DeferredTx.Proofs.Session.Calm
import DeferredTx.Proofs.Session.Marks
import DeferredTx.Proofs.Store.Shadow
import DeferredTx.Proofs.Store.Reached
import DeferredTx.Proofs.Shell.Table
import DeferredTx.Proofs.Shell.Accounting
import DeferredTx.Proofs.Shell.Faithful
import DeferredTx.Proofs.Session.Refused
import DeferredTx.Proofs.Session.Ending
import DeferredTx.Proofs.Address.Masking
import DeferredTx.Proofs.Statement.Framing
import DeferredTx.Proofs.Statement.LetterCase
import DeferredTx.Proofs.Statement.Again
import DeferredTx.Proofs.Statement.Joint
import DeferredTx.Proofs.Statement.HintEnd
import DeferredTx.Proofs.Statement.Refusal
import DeferredTx.Proofs.Shell.MetaLine
import DeferredTx.Proofs.Settings.Sources
import DeferredTx.Proofs.Store.Columns
import DeferredTx.Proofs.Session.OwnChecks
import DeferredTx.Proofs.Session.NewSavepoint
import DeferredTx.Proofs.Shell.Grammar
