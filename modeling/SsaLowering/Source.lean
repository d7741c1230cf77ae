/-
# SsaLowering.Source -- positions in source files

A node of the tree carries a `FileSpan`: a file number and a half-open range of
byte offsets.  `FileSpan.text` is how a position is written in every report.
-/
namespace SsaLowering

set_option autoImplicit false

/-- The number of a source file. -/
structure FileId where
  index : Nat
deriving DecidableEq, Inhabited

/-- The bytes from `start` up to but not including `stop`. -/
structure Span where
  start : Nat
  stop : Nat
deriving DecidableEq, Inhabited

/-- A range of bytes in one file. -/
structure FileSpan where
  file : FileId
  span : Span
deriving DecidableEq, Inhabited

def FileId.text (file : FileId) : String := s!"file#{file.index}"

def Span.text (span : Span) : String := s!"{span.start}..{span.stop}"

def FileSpan.text (place : FileSpan) : String := s!"{place.file.text}@{place.span.text}"

/-- The position of a node that was never placed: the empty range at the start of file 0. -/
def FileSpan.unplaced : FileSpan := ⟨⟨0⟩, ⟨0, 0⟩⟩

end SsaLowering
