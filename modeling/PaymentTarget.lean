import PaymentTarget.CommandLine.Run
import PaymentTarget.Samples
import PaymentTarget.Send.Trace
import PaymentTarget.Main
import PaymentTarget.Proofs.Bech32.Corruption
import PaymentTarget.Proofs.Classifier.Network
import PaymentTarget.Proofs.CommandLine.Answers
import PaymentTarget.Proofs.Invoice.Draft
import PaymentTarget.Proofs.Invoice.Price
import PaymentTarget.Proofs.Send.Handoff
import PaymentTarget.Proofs.Send.Views
import PaymentTarget.Proofs.Text.Lines
import PaymentTarget.Proofs.Send.Query
import PaymentTarget.Proofs.LetterCase
import PaymentTarget.Proofs.Classifier.Bare
import PaymentTarget.Proofs.Classifier.Blank
import PaymentTarget.Proofs.Bech32.Lengthening
import PaymentTarget.Proofs.Invoice.Range
import PaymentTarget.Proofs.Send.Trace
import PaymentTarget.Proofs.Position
import PaymentTarget.Proofs.Node.Point
import PaymentTarget.Proofs.Invoice.Expiry
import PaymentTarget.Proofs.Bech32.Shift
import PaymentTarget.Proofs.Invoice.Grammar
