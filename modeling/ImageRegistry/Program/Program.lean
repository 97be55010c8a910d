import ImageRegistry.Program.Call

/-! Programs: what a registry does, as a tree of calls that branches on the replies. A handler
that replies to calls runs a program; programs with the same tree do the same with each one. -/

namespace ImageRegistry

/-- A program that ends with a result. -/
inductive Program (α : Type) : Type where
  | done (result : α)
  | ask (call : Call) (next : call.Reply → Program α)

namespace Program

def andThen {α β : Type} : Program α → (α → Program β) → Program β
  | done a, f => f a
  | ask c next, f => ask c fun reply => (next reply).andThen f

instance : Monad Program where
  pure := done
  bind := andThen

def call (c : Call) : Program c.Reply := ask c done

/-- Runs a program: a handler replies to each call, and may change its state. -/
def run {σ α : Type} (answer : σ → (c : Call) → c.Reply × σ) : Program α → σ → α × σ
  | done a, s => (a, s)
  | ask c next, s =>
    let (reply, s) := answer s c
    (next reply).run answer s

@[simp] theorem pure_eq {α : Type} (a : α) : (pure a : Program α) = done a := rfl

@[simp] theorem bind_eq {α β : Type} (p : Program α) (f : α → Program β) :
    p >>= f = p.andThen f := rfl

@[simp] theorem andThen_done {α : Type} (p : Program α) : p.andThen done = p := by
  induction p with
  | done a => rfl
  | ask c next ih => simp only [andThen, ih]

theorem andThen_assoc {α β γ : Type} (p : Program α) (f : α → Program β) (g : β → Program γ) :
    (p.andThen f).andThen g = p.andThen fun a => (f a).andThen g := by
  induction p with
  | done a => rfl
  | ask c next ih => simp only [andThen, ih]

instance : LawfulMonad Program :=
  LawfulMonad.mk' Program andThen_done (fun _ _ => rfl) andThen_assoc

/-- Running one program after another hands the state on. -/
@[simp] theorem run_andThen {σ α β : Type} (answer : σ → (c : Call) → c.Reply × σ)
    (p : Program α) (f : α → Program β) (s : σ) :
    (p.andThen f).run answer s = (f (p.run answer s).1).run answer (p.run answer s).2 := by
  induction p generalizing s with
  | done a => rfl
  | ask c next ih => simp only [andThen, run, ih]

end Program

abbrev Action := ExceptT RegistryError Program

namespace Action

def run {σ α : Type} (answer : σ → (c : Call) → c.Reply × σ) (a : Action α) (s : σ) :
    Except RegistryError α × σ := Program.run answer (ExceptT.run a) s

/-- The action of a single call, which does not fail whatever the reply is. -/
def call (c : Call) : Action c.Reply := ExceptT.lift (Program.call c)

def orFail {ε α : Type} (error : ε → RegistryError) : Except ε α → Action α
  | .ok a => pure a
  | .error e => throw (error e)

def ofStorage {α : Type} (reply : Except StorageError α) : Action α := orFail .storage reply

def unlessMissing {α : Type} : Except StorageError α → Action (Option α)
  | .ok a => pure (some a)
  | .error e => if e.isNotFound then pure none else throw (.storage e)

def size? (key : Path) : Action (Option Nat) := do
  unlessMissing (← call (.metadata key))

def fetch? (key : Path) : Action (Option Octets) := do
  unlessMissing (← call (.download key))

def holds (key : Path) : Action Bool := return (← size? key).isSome

def store (key : Path) (content : Octets) : Action Unit := do
  ofStorage (← call (.upload key content))

def erase (key : Path) : Action Unit := do
  ofStorage (← call (.delete key))

/-- Removes a key if it exists, and says whether it did. -/
def eraseIfHeld (key : Path) : Action Bool := do
  if ← holds key then
    erase key
    return true
  else return false

/-- The keys at or below a path; none if its bucket is missing. -/
def keysBelow (base : Path) : Action (List Path) :=
  return (← unlessMissing (← call (.list base))).getD []

def whileListing {α : Type} (what : String) (a : Action α) : Action α :=
  tryCatch a fun e => throw (.enumeration what e)

end Action
end ImageRegistry
