import Mathlib.Tactic.Common
import ImageRegistry.Program.World

/-! Outages: calls of the storage that fail, for another reason than that something is missing, and
then have no effect. A program heeds failures if each of them ends it at once with an error that
tells of it. Then the calls of a run with outages are the first calls of the run without. -/

namespace ImageRegistry

def RegistryError.IsOutage : RegistryError → Prop
  | .storage e => e.isNotFound = false
  | .enumeration _ cause => cause.IsOutage
  | _ => False

/-- Which calls of the storage fail, counted from the first one, and how. -/
structure Outages where
  failure? : Nat → Option StorageError
  grave : ∀ i e, failure? i = some e → e.isNotFound = false

def Outages.never : Outages where
  failure? _ := none
  grave _ _ := nofun

/-- What a program runs against, and which calls of the storage it made so far. Of each it is known
whether it was carried out. -/
structure Trial where
  world : World
  calls : List (Call × Bool) := []

namespace Trial

/-- Replies to a call. A call that fails has no effect. -/
def answer (outages : Outages) (t : Trial) (c : Call) : c.Reply × Trial :=
  if c.storageSite?.isSome then
    match outages.failure? t.calls.length with
    | none =>
      ((t.world.reply c).1, { world := (t.world.reply c).2, calls := t.calls ++ [(c, true)] })
    | some e => (c.fail e DescriptorCache.down, { t with calls := t.calls ++ [(c, false)] })
  else ((t.world.reply c).1, { t with world := (t.world.reply c).2 })

/-- Runs an action under outages. -/
def run {α : Type} (outages : Outages) (t : Trial) (a : Action α) :
    Except RegistryError α × Trial := a.run (answer outages) t

def HasFailed (t : Trial) : Prop := ∃ c, (c, false) ∈ t.calls

def deletedBy? : Call × Bool → Option Path
  | (.delete key, true) => some key
  | _ => none

lemma deletedBy?_failed (c : Call) : deletedBy? (c, false) = none := by
  cases c <;> rfl

def deleted (t : Trial) : List Path := t.calls.filterMap deletedBy?

end Trial

lemma World.faults_reply (w : World) (c : Call) : (w.reply c).2.faults = w.faults := by
  cases c <;> rfl

lemma World.answer_of_faults_eq_nil {w : World} (fine : w.faults = []) (c : Call) :
    w.answer c = w.reply c := by
  obtain ⟨backend, bucket, locationBase, faults, cache⟩ := w
  obtain rfl : faults = [] := fine
  cases c <;> rfl

theorem Trial.run_never {α : Type} (a : Action α) {t : Trial} (fine : t.world.faults = []) :
    ((t.run .never a).1, (t.run .never a).2.world) = t.world.run a := by
  unfold Trial.run World.run Action.run
  generalize ExceptT.run a = p
  induction p generalizing t with
  | done x => rfl
  | ask c next ih =>
    have fine' : (t.world.reply c).2.faults = [] := by rw [World.faults_reply, fine]
    have replied : Trial.answer .never t c = ((t.world.reply c).1,
        { world := (t.world.reply c).2, calls := (Trial.answer .never t c).2.calls }) := by
      unfold Trial.answer
      split_ifs <;> rfl
    rw [Program.run, Program.run, replied, World.answer_of_faults_eq_nil fine]
    exact ih _ fine'

/-- All calls of the program are allowed, and with a call of the storage that fails it ends. -/
def Program.Heeds {α : Type} (A : Call → Prop) : Program (Except RegistryError α) → Prop
  | .done _ => True
  | .ask c next => A c ∧ (∀ reply, (next reply).Heeds A) ∧
    (c.storageSite?.isSome = true → ∀ e down, e.isNotFound = false →
      ∃ x, x.IsOutage ∧ next (c.fail e down) = .done (.error x))

namespace Program

variable {α β : Type} {A B : Call → Prop}

lemma Heeds.mono {p : Program (Except RegistryError α)} (heeds : p.Heeds A)
    (weaker : ∀ c, A c → B c) : p.Heeds B := by
  induction p with
  | done x => trivial
  | ask c next ih =>
    obtain ⟨allowed, later, stops⟩ := heeds
    exact ⟨weaker c allowed, fun reply => ih reply (later reply), stops⟩

lemma Heeds.andThen {p : Program (Except RegistryError α)}
    {f : Except RegistryError α → Program (Except RegistryError β)} (heeds : p.Heeds A)
    (later : ∀ x, (f x).Heeds A)
    (stops : ∀ x : RegistryError, x.IsOutage → ∃ y, y.IsOutage ∧ f (.error x) = .done (.error y)) :
    (p.andThen f).Heeds A := by
  induction p with
  | done x => exact later x
  | ask c next ih =>
    obtain ⟨allowed, heeds, ends⟩ := heeds
    refine ⟨allowed, fun reply => ih reply (heeds reply), fun site e down grave => ?_⟩
    obtain ⟨x, outage, same⟩ := ends site e down grave
    obtain ⟨y, outage', same'⟩ := stops x outage
    refine ⟨y, outage', ?_⟩
    dsimp only
    rw [same, Program.andThen, same']

lemma exists_calls {γ : Type} (p : Program γ) (outages : Outages) (t : Trial) :
    ∃ later, (p.run (Trial.answer outages) t).2.calls = t.calls ++ later := by
  induction p generalizing t with
  | done x => exact ⟨[], (List.append_nil _).symm⟩
  | ask c next ih =>
    obtain ⟨later, same⟩ := ih _ (Trial.answer outages t c).2
    have grown : ∃ first, (Trial.answer outages t c).2.calls = t.calls ++ first := by
      unfold Trial.answer
      split_ifs
      · cases outages.failure? t.calls.length <;> exact ⟨_, rfl⟩
      · exact ⟨[], (List.append_nil _).symm⟩
    obtain ⟨first, grown⟩ := grown
    exact ⟨first ++ later, by rw [Program.run, same, grown, List.append_assoc]⟩

theorem Heeds.run {p : Program (Except RegistryError α)} (heeds : p.Heeds A) (outages : Outages)
    (t : Trial) :
    let tried := p.run (Trial.answer outages) t
    let smooth := p.run (Trial.answer .never) t
    ∃ carried : List Call, (∀ c ∈ carried, A c) ∧
      ((tried = smooth ∧ tried.2.calls = t.calls ++ carried.map (·, true)) ∨
        ∃ c x later, tried.1 = .error x ∧ x.IsOutage ∧
          tried.2.calls = t.calls ++ carried.map (·, true) ++ [(c, false)] ∧
          smooth.2.calls = t.calls ++ carried.map (·, true) ++ later) := by
  intro tried smooth
  induction p generalizing t with
  | done x => exact ⟨[], by simp, .inl ⟨rfl, (List.append_nil _).symm⟩⟩
  | ask c next ih =>
    obtain ⟨allowed, later, stops⟩ := heeds
    by_cases site : c.storageSite?.isSome = true
    · cases failed : outages.failure? t.calls.length with
      | none =>
        let t' : Trial := { world := (t.world.reply c).2, calls := t.calls ++ [(c, true)] }
        have replied : Trial.answer outages t c = ((t.world.reply c).1, t') := by
          rw [Trial.answer, if_pos site, failed]
        have replied' : Trial.answer .never t c = ((t.world.reply c).1, t') := by
          rw [Trial.answer, if_pos site]
          rfl
        have goesOn : tried = (next (t.world.reply c).1).run (Trial.answer outages) t' := by
          simp only [tried, Program.run, replied]
        have goesOn' : smooth = (next (t.world.reply c).1).run (Trial.answer .never) t' := by
          simp only [smooth, Program.run, replied']
        obtain ⟨carried, all, ends⟩ := ih _ (later _) t'
        refine ⟨c :: carried, List.forall_mem_cons.2 ⟨allowed, all⟩, ?_⟩
        rw [goesOn, goesOn']
        simpa [t', List.append_assoc] using ends
      | some e =>
        obtain ⟨x, outage, ends⟩ := stops site e DescriptorCache.down (outages.grave _ e failed)
        have replied : Trial.answer outages t c =
            (c.fail e DescriptorCache.down, { t with calls := t.calls ++ [(c, false)] }) := by
          rw [Trial.answer, if_pos site, failed]
        have stopped : tried = (.error x, { t with calls := t.calls ++ [(c, false)] }) := by
          simp only [tried, Program.run, replied, ends]
        obtain ⟨rest, grown⟩ := exists_calls (.ask c next) .never t
        refine ⟨[], by simp, .inr ⟨c, x, rest, by rw [stopped], outage, by simp [stopped], ?_⟩⟩
        simpa using grown
    · let t' : Trial := { t with world := (t.world.reply c).2 }
      have replied (o : Outages) : Trial.answer o t c = ((t.world.reply c).1, t') := by
        rw [Trial.answer, if_neg site]
      have goesOn : tried = (next (t.world.reply c).1).run (Trial.answer outages) t' := by
        simp only [tried, Program.run, replied]
      have goesOn' : smooth = (next (t.world.reply c).1).run (Trial.answer .never) t' := by
        simp only [smooth, Program.run, replied]
      rw [goesOn, goesOn']
      exact ih _ (later _) t'

end Program

/-- The action heeds failures, and makes allowed calls only. -/
def Action.Heeds {α : Type} (A : Call → Prop) (a : Action α) : Prop :=
  Program.Heeds A (ExceptT.run a)

namespace Action.Heeds

variable {α β : Type} {A B : Call → Prop}

lemma mono {a : Action α} (heeds : a.Heeds A) (weaker : ∀ c, A c → B c) : a.Heeds B :=
  Program.Heeds.mono heeds weaker

lemma pure (x : α) : (Pure.pure x : Action α).Heeds A := trivial

lemma throw (e : RegistryError) : (throw e : Action α).Heeds A := trivial

lemma liftExcept (x : Except RegistryError α) : (liftM x : Action α).Heeds A := by
  cases x <;> trivial

lemma orFail {ε : Type} (error : ε → RegistryError) (x : Except ε α) :
    (Action.orFail error x).Heeds A := by
  cases x <;> trivial

lemma unlessMissing (reply : Except StorageError α) : (Action.unlessMissing reply).Heeds A := by
  cases reply with
  | ok x => trivial
  | error e =>
    rw [Action.unlessMissing]
    split_ifs <;> trivial

lemma bind {a : Action α} {f : α → Action β} (ha : a.Heeds A) (hf : ∀ x, (f x).Heeds A) :
    (a >>= f).Heeds A := by
  refine Program.Heeds.andThen ha (fun x => ?_) fun x outage => ⟨x, outage, rfl⟩
  cases x with
  | ok x => exact hf x
  | error e => trivial

lemma map {a : Action α} (f : α → β) (ha : a.Heeds A) : (f <$> a).Heeds A := by
  rw [map_eq_pure_bind]
  exact ha.bind fun _ => .pure _

lemma tryCatch {a : Action α} {handle : RegistryError → Action α} (ha : a.Heeds A)
    (handles : ∀ e, (handle e).Heeds A)
    (fails : ∀ x : RegistryError, x.IsOutage → ∃ y, y.IsOutage ∧ handle x = MonadExcept.throw y) :
    (tryCatch a handle).Heeds A := by
  refine Program.Heeds.andThen ha (fun x => ?_) fun x outage => ?_
  · cases x with
    | ok x => trivial
    | error e => exact handles e
  · obtain ⟨y, outage', same⟩ := fails x outage
    exact ⟨y, outage', congrArg ExceptT.run same⟩

lemma forM {xs : List α} {f : α → Action PUnit} (each : ∀ x ∈ xs, (f x).Heeds A) :
    (xs.forM f).Heeds A := by
  induction xs with
  | nil => trivial
  | cons x xs ih =>
    exact (each x List.mem_cons_self).bind fun _ =>
      ih fun y mem => each y (List.mem_cons_of_mem x mem)

lemma call {c : Call} (allowed : A c) (noSite : c.storageSite? = none) :
    (Action.call c).Heeds A :=
  ⟨allowed, fun _ => trivial, fun site => by rw [noSite] at site; cases site⟩

lemma ask {c : Call} {f : c.Reply → Action α} (allowed : A c) (later : ∀ reply, (f reply).Heeds A)
    (fails : ∀ e down, e.isNotFound = false → f (c.fail e down) = MonadExcept.throw (.storage e)) :
    (Action.call c >>= f).Heeds A := by
  refine ⟨allowed, later, fun _ e down grave => ⟨.storage e, grave, ?_⟩⟩
  exact congrArg ExceptT.run (fails e down grave)

lemma unlessMissing_fails {e : StorageError} (grave : e.isNotFound = false) :
    (Action.unlessMissing (.error e) : Action (Option α)) = MonadExcept.throw (.storage e) := by
  rw [Action.unlessMissing, grave]
  rfl

lemma fetch? {key : Path} (allowed : A (.download key)) : (Action.fetch? key).Heeds A :=
  ask allowed unlessMissing fun _ _ grave => unlessMissing_fails grave

lemma size? {key : Path} (allowed : A (.metadata key)) : (Action.size? key).Heeds A :=
  ask allowed unlessMissing fun _ _ grave => unlessMissing_fails grave

lemma erase {key : Path} (allowed : A (.delete key)) : (Action.erase key).Heeds A :=
  ask allowed (orFail _) fun _ _ _ => rfl

lemma eraseIfHeld {key : Path} (asks : A (.metadata key)) (allowed : A (.delete key)) :
    (Action.eraseIfHeld key).Heeds A := by
  refine ((size? asks).bind fun _ => .pure _).bind fun held => ?_
  split_ifs
  · exact (erase allowed).bind fun _ => .pure _
  · exact .pure _

lemma keysBelow {base : Path} (allowed : A (.list base)) : (Action.keysBelow base).Heeds A := by
  refine ask allowed (fun reply => (unlessMissing reply).bind fun _ => .pure _)
    fun e down grave => ?_
  change (Action.unlessMissing (.error e) >>= _) = _
  rw [unlessMissing_fails grave]
  rfl

lemma whileListing (what : String) {a : Action α} (ha : a.Heeds A) :
    (Action.whileListing what a).Heeds A :=
  ha.tryCatch (fun _ => .throw _) fun x outage => ⟨.enumeration what x, outage, rfl⟩

end Action.Heeds

namespace Trial

variable {α β : Type} {A : Call → Prop}

lemma run_bind (outages : Outages) (t : Trial) (a : Action α) (f : α → Action β) :
    t.run outages (a >>= f) = match t.run outages a with
      | (.ok x, t') => t'.run outages (f x)
      | (.error e, t') => (.error e, t') := by
  unfold Trial.run Action.run
  rw [ExceptT.run_bind, Program.bind_eq, Program.run_andThen]
  generalize Program.run (answer outages) (ExceptT.run a) t = p
  obtain ⟨x | x, t'⟩ := p <;> rfl

theorem error_of_hasFailed {a : Action α} (heeds : a.Heeds A) (outages : Outages) (w : World)
    (failed : ((Trial.mk w []).run outages a).2.HasFailed) :
    ∃ x, x.IsOutage ∧ ((Trial.mk w []).run outages a).1 = .error x := by
  obtain ⟨carried, -, ⟨-, calls⟩ | ⟨_, x, _, ended, outage, -, -⟩⟩ :=
    Program.Heeds.run heeds outages ⟨w, []⟩
  · obtain ⟨c, mem⟩ := failed
    rw [show ((Trial.mk w []).run outages a).2.calls = _ from calls] at mem
    simp at mem
  · exact ⟨x, outage, ended⟩

theorem deleted_prefix {a : Action α} (heeds : a.Heeds A) (outages : Outages) (w : World) :
    ((Trial.mk w []).run outages a).2.deleted <+: ((Trial.mk w []).run .never a).2.deleted := by
  obtain ⟨carried, -, ⟨same, -⟩ | ⟨c, _, later, -, -, calls, calls'⟩⟩ :=
    Program.Heeds.run heeds outages ⟨w, []⟩
  · rw [show (Trial.mk w []).run outages a = _ from same]
    exact List.prefix_rfl
  · rw [deleted, show ((Trial.mk w []).run outages a).2.calls = _ from calls, deleted,
      show ((Trial.mk w []).run .never a).2.calls = _ from calls']
    simp only [List.filterMap_append, List.filterMap_cons_none (deletedBy?_failed c),
      List.filterMap_nil, List.append_nil]
    exact List.prefix_append _ _

theorem deleted_eq_nil {a : Action α} (heeds : a.Heeds A) (spares : ∀ key, ¬A (.delete key))
    (outages : Outages) (w : World) : ((Trial.mk w []).run outages a).2.deleted = [] := by
  have carries {carried : List Call} (all : ∀ c ∈ carried, A c) :
      (carried.map (·, true)).filterMap deletedBy? = [] := by
    refine List.filterMap_eq_nil_iff.2 fun made mem => ?_
    obtain ⟨c, hc, rfl⟩ := List.mem_map.1 mem
    cases c
    case delete key => exact absurd (all _ hc) (spares key)
    all_goals rfl
  obtain ⟨carried, all, ⟨-, calls⟩ | ⟨c, _, _, -, -, calls, -⟩⟩ :=
    Program.Heeds.run heeds outages ⟨w, []⟩
  · rw [deleted, show ((Trial.mk w []).run outages a).2.calls = _ from calls]
    exact carries all
  · rw [deleted, show ((Trial.mk w []).run outages a).2.calls = _ from calls,
      List.filterMap_append, List.filterMap_cons_none (deletedBy?_failed c)]
    simpa using carries all

end Trial
end ImageRegistry
