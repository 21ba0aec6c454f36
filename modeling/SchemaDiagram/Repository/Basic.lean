import SchemaDiagram.FileTree.Access
import SchemaDiagram.Log
import SchemaDiagram.Selection

namespace SchemaDiagram

namespace Repository

inductive Delivery where
  | text (content : String)
  | failed (reason : String)
  | late
  deriving DecidableEq, Repr

/-- Only the first of these is one that callers of a scan expect. -/
inductive ListingFault where
  | unavailable (reason : String)
  | noText (reason : String)
  | noList (kind : String)
  | tooDeep (reason : String)
  | access (f : FileTree.Fault)
  deriving DecidableEq, Repr

def ListingFault.message : ListingFault → String
  | .unavailable reason => reason
  | .noText reason => reason
  | .noList kind => "'" ++ kind ++ "' object is not iterable"
  | .tooDeep reason => reason
  | .access f => f.message

end Repository

structure Repository where
  identity : String
  listing : Except Repository.ListingFault (List TreeEntry)
  listingLogs : Logs := []
  deliver : String → Repository.Delivery
  deliveryLogs : String → Logs := fun _ => []

end SchemaDiagram
