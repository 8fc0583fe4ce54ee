import CompanyRegister.Text.Blank
import CompanyRegister.Text.Pieces
import CompanyRegister.Text.Digits
import CompanyRegister.Text.Word
import CompanyRegister.Text.Quoted
import CompanyRegister.Money
import CompanyRegister.Decimal.Layout
import CompanyRegister.Calendar.Written
import CompanyRegister.Json.Value
import CompanyRegister.Company.Document
import CompanyRegister.Source.Annotated
import CompanyRegister.Schema.Company
import CompanyRegister.Store.Conversion
import CompanyRegister.Store.Rows
import CompanyRegister.Store.Migration
import CompanyRegister.Register.Registrar
import CompanyRegister.Log.Session
import CompanyRegister.Source.File
import CompanyRegister.Command.Run
import CompanyRegister.Store.Image
import CompanyRegister.Main
import CompanyRegister.Proofs.Calendar.Stored
import CompanyRegister.Proofs.Store.Upgrade
import CompanyRegister.Proofs.Register.Atomicity
import CompanyRegister.Proofs.Money.WholeNumbers
import CompanyRegister.Proofs.Source.Locality
import CompanyRegister.Proofs.Source.Agreement
import CompanyRegister.Proofs.Source.Generated
import CompanyRegister.Proofs.Source.Rewriting
import CompanyRegister.Proofs.Register.SameStore
import CompanyRegister.Proofs.Source.Headers
import CompanyRegister.Proofs.Source.Misread
import CompanyRegister.Proofs.Register.StoredRows
import CompanyRegister.Proofs.Company.Document
import CompanyRegister.Proofs.Log.Session
import CompanyRegister.Proofs.Register.Frame
import CompanyRegister.Proofs.Register.Pages
import CompanyRegister.Proofs.Register.Reading
import CompanyRegister.Proofs.Calendar.Offsets
import CompanyRegister.Proofs.Source.Markers
import CompanyRegister.Proofs.Source.QuotedLength
import CompanyRegister.Proofs.Source.ImportStatements
import CompanyRegister.Proofs.Source.Renaming
import CompanyRegister.Proofs.Source.Padding
import CompanyRegister.Proofs.Source.BlankLines
import CompanyRegister.Proofs.Source.UnionOrder
import CompanyRegister.Proofs.Company.Validation
import CompanyRegister.Proofs.Register.Readiness
import CompanyRegister.Proofs.Register.ReadBack
import CompanyRegister.Proofs.Source.Described
import CompanyRegister.Proofs.Source.LineEnds
import CompanyRegister.Proofs.Schema.Statements
import CompanyRegister.Proofs.Company.Members
import CompanyRegister.Proofs.Source.KeptImports
import CompanyRegister.Proofs.Source.Refusals
