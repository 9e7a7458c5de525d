import RecordRows.Catalogue.Records
import RecordRows.Main
import RecordRows.Row.Json
import RecordRows.Proofs.Row.Run
import RecordRows.Proofs.Row.Integer
import RecordRows.Proofs.Row.RoundTrip
import RecordRows.Proofs.Row.Sequence
import RecordRows.Proofs.Row.Float
import RecordRows.Proofs.Row.BigInteger
import RecordRows.Proofs.Derive.Reports
import RecordRows.Proofs.Derive.Configuration
import RecordRows.Proofs.Row.Refusal
import RecordRows.Proofs.Derive.Capability
import RecordRows.Proofs.Derive.Bounds
import RecordRows.Proofs.Derive.CaseRule
import RecordRows.Proofs.Derive.Agreement
import RecordRows.Proofs.Derive.Naming
import RecordRows.Proofs.Derive.NameLiteral
import RecordRows.Proofs.Row.FloatText
import RecordRows.Proofs.Demo.Session
