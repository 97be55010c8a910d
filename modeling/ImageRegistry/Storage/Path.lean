import ImageRegistry.Text.Split

/-! Paths: texts that name keys. Two paths name the same key if their components agree; empty
pieces, single dots inside and slashes at the end do not count. -/

namespace ImageRegistry

/-- A component of a path. -/
inductive Component where
  /-- The slash at the start. -/
  | root
  /-- A single dot at the start. -/
  | current
  /-- Two dots. -/
  | parent
  | name (text : String)
  deriving DecidableEq, Repr

namespace Component

/-- The place of a kind of component among the others. -/
def rank : Component → Nat
  | root => 0
  | current => 1
  | parent => 2
  | name _ => 3

def text : Component → String
  | root => "/"
  | current => "."
  | parent => ".."
  | name s => s

/-- Components are ordered by kind, and names by their texts. -/
instance : Ord Component := ⟨compareLex (compareOn rank) (compareOn text)⟩

instance : Std.TransOrd Component :=
  inferInstanceAs (Std.TransCmp (compareLex (compareOn rank) (compareOn text)))

instance : Std.LawfulEqOrd Component where
  eq_of_compare {a b} h := by
    have h : compareLex (compareOn rank) (compareOn text) a b = .eq := h
    rw [compareLex_eq_eq] at h
    have hr : a.rank = b.rank := Std.compare_eq_iff_eq.1 h.1
    have ht : a.text = b.text := Std.compare_eq_iff_eq.1 h.2
    cases a <;> cases b <;> simp_all [rank, text]

/-- The component that a piece between slashes is, if it counts. -/
def ofPiece? (piece : List Char) : Option Component :=
  if piece = [] ∨ piece = ['.'] then none
  else if piece = ['.', '.'] then some parent
  else some (name (String.ofList piece))

end Component

/-- A path as it was written. -/
structure Path where
  text : String
  deriving DecidableEq, Repr

namespace Path

instance : ToString Path := ⟨text⟩

def isAbsolute (p : Path) : Bool := p.text.toList.head? == some '/'

def componentsOf (cs : List Char) : List Component :=
  match pieces '/' cs with
  | [] => []
  | [] :: rest =>
    if cs.isEmpty then [] else .root :: rest.filterMap Component.ofPiece?
  | first :: rest =>
    (if first = ['.'] then [.current] else [first].filterMap Component.ofPiece?) ++
      rest.filterMap Component.ofPiece?

def components (p : Path) : List Component := componentsOf p.text.toList

/-- The path that leads from the first path along the second one, which takes over if it is
absolute. -/
def join (p : Path) (q : String) : Path :=
  if q.toList.head? = some '/' then ⟨q⟩
  else if p.text.isEmpty ∨ p.text.toList.getLast? = some '/' then ⟨p.text ++ q⟩
  else ⟨p.text ++ "/" ++ q⟩

instance : HDiv Path String Path := ⟨join⟩

/-- Whether the path lies at or below another one. -/
def startsWith (p base : Path) : Bool := base.components.isPrefixOf p.components

/-- The components of a path after those of another one at or above it. -/
def componentsAfter? (p base : Path) : Option (List Component) :=
  base.components.isPrefixOf? p.components

def skipIdle : List Char → List Char
  | '/' :: cs => skipIdle cs
  | '.' :: '/' :: cs => skipIdle cs
  | ['.'] => []
  | cs => cs

/-- The characters after the first `n` components of a path. -/
def dropNames : Nat → List Char → List Char
  | 0, cs => skipIdle cs
  | n + 1, cs => dropNames n ((skipIdle cs).dropWhile (· != '/'))

/-- What is written after the components of another path, which has to lie at or above. -/
def textAfter? (p base : Path) : Option Path :=
  (p.componentsAfter? base).map fun _ =>
    let names := base.components.filter fun c => c != .root && c != .current
    ⟨String.ofList (dropNames names.length p.text.toList)⟩

/-- The file name without its extension, and what stands before the file name: the last
component has to be a name. -/
def stem? (p : Path) : Option (List Char × List Char) :=
  match p.components.getLast? with
  | some (.name file) =>
    let stem :=
      match splitLast? '.' file.toList with
      | some ([], _) | none => file.toList
      | some (stem, _) => stem
    let backwards := (trailingIdle p.text.toList.reverse).drop file.toList.length
    some (backwards.reverse, stem)
  | _ => none
where
  /-- The characters of a path, read backwards, after pieces that do not count. -/
  trailingIdle : List Char → List Char
    | '/' :: cs => trailingIdle cs
    | '.' :: '/' :: cs => trailingIdle ('/' :: cs)
    | cs => cs
  termination_by cs => cs.length

/-- The path with another extension of its file name. -/
def withExtension (p : Path) (extension : String) : Path :=
  match p.stem? with
  | some (before, stem) => ⟨String.ofList (before ++ stem ++ '.' :: extension.toList)⟩
  | none => p

end Path
end ImageRegistry
