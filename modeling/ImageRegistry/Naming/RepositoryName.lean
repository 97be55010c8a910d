/-! Repository names. A name is a path of components between slashes; a component is made of
runs of lower case letters and digits, between which stand a dot, one or two underscores, or
any number of hyphens. -/

namespace ImageRegistry
namespace RepositoryName

def isRunChar (c : Char) : Bool := c.isLower || c.isDigit

/-- How far a reader has come in a name. -/
inductive Progress where
  /-- A run has to begin here: at the start of a component or after a separator. -/
  | beforeRun
  /-- Inside a run, the only place where a name may end. -/
  | inRun
  /-- After one underscore. -/
  | underscore
  /-- After one hyphen or more. -/
  | hyphens
  deriving DecidableEq, Repr

/-- The progress after one more character, unless the character cannot stand there. -/
def Progress.next? : Progress → Char → Option Progress
  | beforeRun, c => if isRunChar c then some inRun else none
  | inRun, c =>
    if isRunChar c then some inRun
    else if c = '.' ∨ c = '/' then some beforeRun
    else if c = '_' then some underscore
    else if c = '-' then some hyphens
    else none
  | underscore, c =>
    if isRunChar c then some inRun else if c = '_' then some beforeRun else none
  | hyphens, c =>
    if isRunChar c then some inRun else if c = '-' then some hyphens else none

def completes : Progress → List Char → Bool
  | p, [] => p == .inRun
  | p, c :: cs =>
    match p.next? c with
    | some q => completes q cs
    | none => false

def maxOctets : Nat := 255

def accepts (s : String) : Bool :=
  s.utf8ByteSize ≤ maxOctets && completes .beforeRun s.toList

end RepositoryName

/-- The name of a repository. -/
structure RepositoryName where
  text : String
  accepted : RepositoryName.accepts text = true
  deriving DecidableEq

namespace RepositoryName

/-- Names are ordered as their texts are. -/
instance : Ord RepositoryName := ⟨compareOn RepositoryName.text⟩

instance : Std.TransOrd RepositoryName :=
  inferInstanceAs (Std.TransCmp (compareOn RepositoryName.text))

instance : Std.LawfulEqOrd RepositoryName where
  eq_of_compare {a b} h := by
    have h : a.text = b.text := Std.compare_eq_iff_eq.1 h
    cases a; cases b; cases h; rfl

instance : ToString RepositoryName := ⟨text⟩

def ofText? (s : String) : Option RepositoryName :=
  if h : RepositoryName.accepts s = true then some ⟨s, h⟩ else none

theorem ofText?_text (n : RepositoryName) : ofText? n.text = some n := by
  simp [ofText?, n.accepted]

theorem ofText?_eq_some_iff {s : String} {n : RepositoryName} :
    ofText? s = some n ↔ s = n.text := by
  constructor
  · intro h
    simp only [ofText?] at h
    split at h
    · cases h; rfl
    · cases h
  · rintro rfl
    exact ofText?_text n

end RepositoryName
end ImageRegistry
