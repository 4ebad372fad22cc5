import Bringup.Text.Raw

/-!
Paths as the system spells them, and the components that they spell.

* `Path.join`: a path inside a directory; an absolute path stays as it is.
* `Path.components`: the parts that count when paths are compared. Repeated and trailing slashes do not
  count, and a dot counts only at the start of a relative path.
-/

namespace Bringup

set_option autoImplicit false

open Bringup.Text (Raw)

/-- The spelling of a place in the file tree. -/
structure Path where
  spelling : Raw
deriving DecidableEq, Repr, Inhabited

namespace Path

/-- A part of a path. -/
inductive Component where
  | root
  | current
  | parent
  | normal (name : Raw)
deriving DecidableEq, Repr

/-- A path that is Unicode. -/
def ofText (s : String) : Path := ⟨s⟩

/-- The path as it is shown. -/
def text (p : Path) : String := p.spelling.text

/-- The path is Unicode. -/
def isUnicode (p : Path) : Bool := p.spelling.isUnicode

/-- The number of bytes of a path. -/
def size (p : Path) : Nat := p.spelling.size

/-- The path starts at the root. -/
def isAbsolute (p : Path) : Bool := p.spelling.head? == some (.char '/')

/-- The path of `p` seen from a directory. -/
def join (base p : Path) : Path :=
  if p.isAbsolute then p
  else if base.spelling.isEmpty || base.spelling.getLast? == some (.char '/') then
    ⟨base.spelling ++ p.spelling⟩
  else ⟨base.spelling ++ .char '/' :: p.spelling⟩

/-- A path inside a directory, by its spelling. -/
def child (base : Path) (name : Raw) : Path := base.join ⟨name⟩

/-- The pieces between slashes. -/
def pieces (p : Path) : List Raw := p.spelling.splitOn (.char '/')

/-- The component that a piece stands for, if any. -/
def component? (piece : Raw) : Option Component :=
  if piece.isEmpty || piece == [.char '.'] then none
  else if piece == [.char '.', .char '.'] then some .parent
  else some (.normal piece)

/-- The components of a path. -/
def components (p : Path) : List Component :=
  let named := p.pieces.filterMap component?
  if p.isAbsolute then .root :: named
  else if p.pieces.head? == some [.char '.'] then .current :: named
  else named

/-- Two spellings of the same path. -/
def same (p q : Path) : Bool := p.components == q.components

end Path

end Bringup
