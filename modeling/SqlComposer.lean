import SqlComposer.Session.Call
import SqlComposer.Connection.Scripted
import SqlComposer.Proofs.Alignment
import SqlComposer.Proofs.Independence
import SqlComposer.Proofs.Failure
import SqlComposer.Proofs.NoneEmpty
import SqlComposer.Proofs.Compiling
import SqlComposer.Proofs.Readability
import SqlComposer.Proofs.Depth
import SqlComposer.Proofs.Transactions
import SqlComposer.Proofs.Leftovers
import SqlComposer.Proofs.Logging
import SqlComposer.Proofs.Kinds
import SqlComposer.Proofs.Identifiers
import SqlComposer.Proofs.Clauses
import SqlComposer.Proofs.Inheritance
import SqlComposer.Proofs.Unions
import SqlComposer.Proofs.Pages
import SqlComposer.Proofs.Inserts
import SqlComposer.Proofs.Enclosing
import SqlComposer.Proofs.Joins
import SqlComposer.Proofs.JoinColumns
import SqlComposer.Proofs.Acceptance
import SqlComposer.Proofs.Canonical
import SqlComposer.Proofs.SortInputs
import SqlComposer.Proofs.SortClauses
import SqlComposer.Proofs.ColumnSets
import SqlComposer.Proofs.ByteCuts
import SqlComposer.Proofs.Counts
import SqlComposer.Proofs.SelectItems
import SqlComposer.Proofs.Integers
