import TreeGen.Template.Expander

/-!
# The generated document

The document of a type tree consists of the expanded roots, one after another, between an opening
and a closing text: an import line and one namespace block.  Nothing is put between the pieces.
-/

namespace TreeGen

open Template

/-- A generated document and what was found out while it was made. -/
structure Document where
  name : String
  content : String
  notices : Notices
  rootCount : Nat
deriving DecidableEq, Repr

namespace Document

def opening : String := "using System;namespace SourceGenerator\x7b"

def closing : String := "\x7d"

def defaultName : String := "Source.cs"

def wrap (body : String) : String :=
  opening ++ body ++ closing

def ofRoots (expander : Expander) (roots : List Node) : Except ExpansionError Document :=
  match (expander.expandAll roots).run.run [] with
  | (.error error, _) => .error error
  | (.ok body, notices) =>
    .ok
      { name := defaultName
        content := wrap body
        notices := notices
        rootCount := roots.length }

def skippedCount (document : Document) : Nat :=
  document.notices.length

end Document

end TreeGen
