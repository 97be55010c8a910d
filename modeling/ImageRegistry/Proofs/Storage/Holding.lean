import ImageRegistry.Proofs.Program.Outages
import ImageRegistry.Proofs.Program.Site
import ImageRegistry.Proofs.Storage.Listings

/-! What a backend holds in a bucket, whatever that is: which keys are listed below a path, and of
which keys there is a size. -/

namespace ImageRegistry

open ImageRegistry.Path (IsFileName IsName)

namespace Bucket

/-- Every key is a spelling of what it is stored under. -/
def IsSpelled (b : Bucket) : Prop :=
  ∀ (cs : List Component) (stored : Stored), b[cs]? = some stored → stored.spelling.components = cs

variable {b : Bucket}

lemma isSpelled_empty : (∅ : Bucket).IsSpelled := by
  intro cs stored found
  simp at found

lemma IsSpelled.put (spelled : b.IsSpelled) (key : Path) (content : Octets) :
    (b.put key content).IsSpelled := by
  intro cs stored found
  rw [Bucket.put, Std.ExtTreeMap.getElem?_insert] at found
  split_ifs at found with same
  · rw [Std.compare_eq_iff_eq] at same
    obtain rfl := Option.some.inj found
    cases old : b[key.components]? with
    | none => exact same
    | some stored => exact (spelled _ stored old).trans same
  · exact spelled cs stored found

lemma IsSpelled.remove (spelled : b.IsSpelled) (key : Path) : (b.remove key).IsSpelled := by
  intro cs stored found
  rw [Bucket.remove, Std.ExtTreeMap.getElem?_erase] at found
  split_ifs at found
  exact spelled cs stored found

theorem isSpelled_ofEntries (entries : List (Path × Octets)) :
    (entries.foldl (fun b entry => b.put entry.1 entry.2) (∅ : Bucket)).IsSpelled := by
  suffices h : ∀ b : Bucket, b.IsSpelled →
      (entries.foldl (fun b entry => b.put entry.1 entry.2) b).IsSpelled from h ∅ isSpelled_empty
  induction entries with
  | nil => exact fun _ => id
  | cons entry entries ih => exact fun b spelled => ih _ (spelled.put entry.1 entry.2)

lemma IsSpelled.exists_mem_keys (spelled : b.IsSpelled) {ns more : List String}
    (isName : ∀ s ∈ ns, IsName s) (nonempty : ns ≠ []) :
    (∃ key ∈ b.keys (some (.along ns)), key.components = (ns ++ more).map .name) ↔
      (b.along? (ns ++ more)).isSome = true := by
  simp only [Bucket.mem_keys, along?, Option.isSome_map, Option.isSome_iff_exists]
  constructor
  · rintro ⟨key, ⟨cs, stored, found, -, rfl⟩, components⟩
    exact ⟨stored, by rw [← components, spelled cs stored found, found]⟩
  · rintro ⟨stored, found⟩
    refine ⟨stored.spelling, ⟨_, stored, found, ?_, rfl⟩, spelled _ stored found⟩
    rw [Path.components_along isName nonempty, List.isPrefixOf_iff_prefix, List.map_append]
    exact List.prefix_append _ _

end Bucket

namespace Disk

open FileTree

/-- There is a file for the key that names lead along. -/
def Holds (d : Disk) (bucket : String) (names : List String) : Prop :=
  ∃ place content, d.tree.find (d.base bucket) = .ok place ∧
    d.tree.node? (place ++ names) = some (.file content)

/-- What is in the directory of a bucket stands in directories, and has names that files may have.
Names and paths may be of any length. -/
structure IsTidy (d : Disk) (bucket : String) : Prop where
  unlimited : d.tree.limits = .none
  clean : (d.base bucket).IsClean
  closed : ∀ place, d.tree.find (d.base bucket) = .ok place → d.tree.IsClosedBelow place
  isFileName : ∀ names, d.Holds bucket names → ∀ s ∈ names, IsFileName s

variable {d : Disk} {bucket : String} {names ns more : List String}

namespace IsTidy

variable (tidy : d.IsTidy bucket)

include tidy

lemma find_eq_walk (isFileName : ∀ s ∈ names, IsFileName s) :
    d.tree.find ((d.base bucket).descend names) =
      (d.tree.find (d.base bucket)).bind fun place => d.tree.walk place (names.map .down) := by
  have isB : IsName "b" := by decide
  have unslashed : (d.base bucket).IsUnslashed := isB.isUnslashed_join _
  rw [find_of_clean tidy.unlimited (tidy.clean.descend unslashed isFileName),
    find_of_clean tidy.unlimited tidy.clean,
    steps_descend unslashed fun s mem => (isFileName s mem).1, walk_append]

lemma directory_of_holds {place : List String} (finds : d.tree.find (d.base bucket) = .ok place)
    (nonempty : names ≠ []) (holds : d.Holds bucket names) :
    d.tree.node? place = some .directory := by
  obtain ⟨_, content, finds', file⟩ := holds
  obtain rfl := Except.ok.inj (finds.symm.trans finds')
  have above : d.tree.node? (place ++ []) = some .directory :=
    (tidy.closed place finds).directory nonempty (by rw [List.nil_append, file]; rfl)
  rwa [List.append_nil] at above

theorem metadata_iff (isFileName : ∀ s ∈ names, IsFileName s) (nonempty : names ≠ []) :
    (∃ size, d.metadata bucket (.along names) = .ok size) ↔ d.Holds bucket names := by
  have path := path_along d bucket (fun s mem => (isFileName s mem).1) nonempty
  have finds := tidy.find_eq_walk isFileName
  rw [← path] at finds
  have found (size : ℕ) : d.metadata bucket (.along names) = .ok size ↔
      ∃ content, d.tree.look (d.path bucket (.along names)) = .ok (.file content) ∧
        content.length = size := by
    unfold Disk.metadata
    dsimp only
    split
    · next content looked => simp [looked]
    · next looked => simp [looked]
    · next looked => simp [looked]
  simp only [found, look_eq_ok_iff, finds]
  constructor
  · rintro ⟨size, content, ⟨q, walked, file⟩, -⟩
    cases base : d.tree.find (d.base bucket) with
    | error e =>
      rw [base] at walked
      cases walked
    | ok place =>
      rw [base] at walked
      obtain rfl := eq_append_of_walk walked
      exact ⟨place, content, base, file⟩
  · intro holds
    obtain ⟨place, content, base, file⟩ := id holds
    have directory := tidy.directory_of_holds base nonempty holds
    have clear := (tidy.closed place base).isClear_of_held (by rw [file]; rfl)
    refine ⟨_, content, ⟨place ++ names, ?_, file⟩, rfl⟩
    rw [base, Except.bind, walk_names tidy.unlimited directory (tidy.closed place base) clear, file]
    rfl

theorem exists_mem_list (isFileName : ∀ s ∈ ns, IsFileName s) (nonempty : ns ≠ [])
    (proper : more ≠ []) :
    (∃ key ∈ d.list bucket (some (.along ns)), key.components = (ns ++ more).map .name) ↔
      d.Holds bucket (ns ++ more) := by
  have isName : ∀ s ∈ ns, IsName s := fun s mem => (isFileName s mem).1
  have target : (some (Path.along ns)).elim (d.base bucket) (fun p => (d.base bucket).join p.text) =
      (d.base bucket).descend ns := path_along d bucket isName nonempty
  have finds := tidy.find_eq_walk isFileName
  have isB : IsName "b" := by decide
  have listed {place : List String} (base : d.tree.find (d.base bucket) = .ok place) (key : Path) :=
    have below : place ++ ns ≠ [] := by simp [nonempty]
    have unslashed := isB.isUnslashed_join (d.root / bucket)
    mem_listed (t := d.tree) (p := key) unslashed.components_ne_nil unslashed below
      fun names content file => by
        rw [List.append_assoc] at file
        refine ⟨by simp [nonempty], fun s mem => ?_⟩
        exact (tidy.isFileName _ ⟨place, content, base, file⟩ s mem).1
  constructor
  · rintro ⟨key, mem, components⟩
    obtain ⟨q, ends, directory⟩ := exists_of_mem_list target mem
    rw [list_of_directory target ends directory] at mem
    cases base : d.tree.find (d.base bucket) with
    | error e =>
      rw [finds, base] at ends
      cases ends
    | ok place =>
      rw [finds, base] at ends
      obtain rfl := eq_append_of_walk ends
      obtain ⟨names, content, file, rfl⟩ := (listed base key).1 mem
      rw [List.append_assoc] at file
      have holds : d.Holds bucket (ns ++ names) := ⟨place, content, base, file⟩
      rw [Path.components_along (fun s mem => (tidy.isFileName _ holds s mem).1)
        (by simp [nonempty]), Path.map_name_inj] at components
      exact components ▸ holds
  · intro holds
    obtain ⟨place, content, base, file⟩ := id holds
    have closed := tidy.closed place base
    have directory := closed.directory proper (by rw [file]; rfl)
    have ends : d.tree.find ((d.base bucket).descend ns) = .ok (place ++ ns) := by
      rw [finds, base, Except.bind, walk_names tidy.unlimited
        (tidy.directory_of_holds base (by simp [nonempty]) holds) closed (closed.isClear directory),
        directory]
      rfl
    rw [list_of_directory target ends directory]
    refine ⟨.along (ns ++ more), (listed base _).2 ⟨more, content, ?_, rfl⟩, ?_⟩
    · rw [List.append_assoc]
      exact file
    · exact Path.components_along (fun s mem => (tidy.isFileName _ holds s mem).1)
        (by simp [nonempty])

end IsTidy
end Disk

namespace Backend

/-- A bucket holds the key that names lead along. -/
def Holds (s : Backend) (bucket : String) (names : List String) : Prop :=
  match s with
  | memory m => ∃ b : Bucket, m.buckets[bucket]? = some b ∧ (b.along? names).isSome = true
  | disk d => d.Holds bucket names

/-- A bucket in memory has spelled keys, and one on a disk is a tree of directories and files. -/
def IsTidy (s : Backend) (bucket : String) : Prop :=
  match s with
  | memory m => ∀ b : Bucket, m.buckets[bucket]? = some b → b.IsSpelled
  | disk d => d.IsTidy bucket

end Backend

namespace World

lemma run_unlessMissing {α : Type} (w : World) (reply : Except StorageError α) :
    w.run (Action.unlessMissing reply) =
      (match reply with
      | .ok a => .ok (some a)
      | .error e => if e.isNotFound then .ok none else .error (.storage e), w) := by
  cases reply with
  | ok a => rfl
  | error e =>
    dsimp only [Action.unlessMissing]
    split_ifs <;> rfl

/-- The bucket holds the key that names lead along. -/
def HoldsAlong (w : World) (names : List String) : Prop := w.backend.Holds w.bucket names

/-- A registry whose bucket is tidy, whatever it holds, and no call to which is made to fail. -/
structure IsTidy (w : World) : Prop where
  faultless : w.faults = []
  bucket : w.backend.IsTidy w.bucket

variable {w : World} (tidy : w.IsTidy) {names ns : List String}

include tidy

theorem run_holds_iff (isFileName : ∀ s ∈ names, IsFileName s) (nonempty : names ≠ []) :
    w.run (Action.holds (.along names)) = (.ok true, w) ↔ w.HoldsAlong names := by
  have ran : w.run (Action.holds (.along names)) =
      (match w.backend.metadata w.bucket (.along names) with
      | .ok _ => .ok true
      | .error e => if e.isNotFound then .ok false else .error (.storage e), w) := by
    rw [Action.holds, run_bind, Action.size?, run_bind, run_call,
      answer_of_faults_eq_nil tidy.faultless, World.reply]
    dsimp only
    rw [run_unlessMissing]
    cases w.backend.metadata w.bucket (.along names) with
    | ok size => rfl
    | error e =>
      dsimp only
      split_ifs <;> rfl
  have found : w.run (Action.holds (.along names)) = (.ok true, w) ↔
      ∃ size, w.backend.metadata w.bucket (.along names) = .ok size := by
    rw [ran]
    cases w.backend.metadata w.bucket (.along names) with
    | ok size => simp
    | error e =>
      dsimp only
      split_ifs <;> simp
  rw [found, HoldsAlong]
  have kept := tidy.bucket
  cases store : w.backend with
  | memory m =>
    change (∃ size, m.metadata w.bucket (.along names) = .ok size) ↔ ∃ b : Bucket, _ ∧ _
    unfold Memory.metadata Memory.bucket
    cases held : m.buckets[w.bucket]? with
    | none => simp [bind, Except.bind]
    | some b =>
      simp only [bind, Except.bind, b.content?_along (fun s mem => (isFileName s mem).1) nonempty]
      cases along : b.along? names <;>
        simp [along, pure, Except.pure, throw, throwThe, MonadExceptOf.throw]
  | disk d =>
    rw [store] at kept
    exact Disk.IsTidy.metadata_iff kept isFileName nonempty

theorem run_keysBelow_tidy (isFileName : ∀ s ∈ ns, IsFileName s) (nonempty : ns ≠ []) :
    ∃ keys, w.run (Action.keysBelow (.along ns)) = (.ok keys, w) ∧ ∀ more, more ≠ [] →
      ((∃ key ∈ keys, key.components = (ns ++ more).map .name) ↔ w.HoldsAlong (ns ++ more)) := by
  have ran : w.run (Action.keysBelow (.along ns)) =
      (match w.backend.list w.bucket (some (.along ns)) with
      | .ok keys => .ok keys
      | .error e => if e.isNotFound then .ok [] else .error (.storage e), w) := by
    rw [Action.keysBelow, run_bind, run_call, answer_of_faults_eq_nil tidy.faultless, World.reply]
    dsimp only
    rw [run_bind, run_unlessMissing]
    cases w.backend.list w.bucket (some (.along ns)) with
    | ok keys => rfl
    | error e =>
      dsimp only
      split_ifs <;> rfl
  have kept := tidy.bucket
  unfold HoldsAlong
  rw [ran]
  cases store : w.backend with
  | memory m =>
    rw [store] at kept
    change ∀ b : Bucket, _ at kept
    have listed : (Backend.memory m).list w.bucket (some (.along ns)) =
        (m.bucket w.bucket).map fun b => b.keys (some (.along ns)) := by
      simp only [Backend.list, Memory.list]
      cases m.bucket w.bucket <;> rfl
    rw [listed, Memory.bucket]
    cases held : m.buckets[w.bucket]? with
    | none => exact ⟨[], rfl, by simp [Backend.Holds, held]⟩
    | some b =>
      refine ⟨b.keys (some (.along ns)), rfl, fun more _ => ?_⟩
      rw [(kept b held).exists_mem_keys (fun s mem => (isFileName s mem).1) nonempty]
      simp [Backend.Holds, held]
  | disk d =>
    rw [store] at kept
    exact ⟨d.list w.bucket (some (.along ns)), rfl, fun more proper =>
      Disk.IsTidy.exists_mem_list kept isFileName nonempty proper⟩

end World
end ImageRegistry
