import TreeGen.Document

/-!
# Delivering documents

Whoever takes a document says whether anything had to be written.  An archive keeps every document
that it is handed; a file, which has a module of its own, keeps only the last one.
-/

namespace TreeGen

inductive Delivery where
  | written
  | unchanged
deriving DecidableEq, Repr

/-- Names and texts of documents, the earliest one first. -/
structure Archive where
  documents : List (String × String)
deriving DecidableEq, Repr

namespace Archive

def empty : Archive := ⟨[]⟩

def receive (archive : Archive) (document : Document) : Delivery × Archive :=
  (.written, ⟨archive.documents ++ [(document.name, document.content)]⟩)

end Archive

end TreeGen
