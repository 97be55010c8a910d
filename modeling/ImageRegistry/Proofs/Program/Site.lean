import Mathlib.Tactic.Common
import ImageRegistry.Program.World
import ImageRegistry.Proofs.Storage.Buckets

/-! What actions do where a registry has a bucket in memory and no call is made to fail. -/

namespace ImageRegistry

/-- Where the bucket of a registry is kept in memory. -/
structure Site where
  /-- The name of the bucket. -/
  name : String
  /-- The buckets of others. -/
  others : Std.ExtTreeMap String Bucket := ∅
  locationBase : Option String := none

namespace Site

/-- The registry with some bucket and some cache at a site. -/
def world (s : Site) (b : Bucket) (cache : DescriptorCache) : World where
  backend := .memory ⟨s.others.insert s.name b⟩
  bucket := s.name
  locationBase := s.locationBase
  cache := cache

end Site

namespace World

variable {α β : Type}

@[simp] lemma run_pure (w : World) (a : α) : w.run (pure a) = (.ok a, w) := rfl

@[simp] lemma run_throw (w : World) (e : RegistryError) :
    w.run (throw e : Action α) = (.error e, w) := rfl

lemma run_bind (w : World) (a : Action α) (f : α → Action β) :
    w.run (a >>= f) = match w.run a with
      | (.ok x, w') => w'.run (f x)
      | (.error e, w') => (.error e, w') := by
  unfold World.run Action.run
  rw [ExceptT.run_bind, Program.bind_eq, Program.run_andThen]
  generalize (Program.run answer (ExceptT.run a) w) = p
  obtain ⟨x | x, w'⟩ := p <;> rfl

@[simp] lemma run_map (w : World) (f : α → β) (a : Action α) :
    w.run (f <$> a) = match w.run a with
      | (.ok x, w') => (.ok (f x), w')
      | (.error e, w') => (.error e, w') := by
  rw [map_eq_pure_bind, run_bind]
  rfl

lemma run_tryCatch (w : World) (a : Action α) (handle : RegistryError → Action α) :
    w.run (tryCatch a handle) = match w.run a with
      | (.ok x, w') => (.ok x, w')
      | (.error e, w') => w'.run (handle e) := by
  unfold World.run Action.run
  change Program.run answer (Program.andThen (ExceptT.run a) _) w = _
  rw [Program.run_andThen]
  generalize Program.run answer (ExceptT.run a) w = p
  obtain ⟨x | x, w'⟩ := p <;> rfl

@[simp] lemma run_call (w : World) (c : Call) :
    w.run (Action.call c) = (.ok (w.answer c).1, (w.answer c).2) := rfl

@[simp] lemma run_liftExcept (w : World) (x : Except RegistryError α) :
    w.run (liftM x : Action α) = (x, w) := by
  cases x <;> rfl

@[simp] lemma run_orFail {ε : Type} (w : World) (error : ε → RegistryError) (x : Except ε α) :
    w.run (Action.orFail error x) = (x.mapError error, w) := by
  cases x <;> rfl

variable {w w' : World}

lemma exists_of_run_bind {a : Action α} {f : α → Action β} {y : β}
    (ran : w.run (a >>= f) = (.ok y, w')) :
    ∃ (x : α) (w₁ : World), w.run a = (.ok x, w₁) ∧ w₁.run (f x) = (.ok y, w') := by
  rw [run_bind] at ran
  cases first : w.run a with
  | mk reply w₁ =>
    rw [first] at ran
    cases reply with
    | ok x => exact ⟨x, w₁, rfl, ran⟩
    | error e => cases ran

lemma run_forM_of_same {w : World} {xs : List α} {f : α → Action PUnit}
    (same : ∀ x ∈ xs, w.run (f x) = (.ok ⟨⟩, w)) : w.run (xs.forM f) = (.ok ⟨⟩, w) := by
  induction xs with
  | nil => rfl
  | cons x xs ih =>
    change w.run (f x >>= fun _ => xs.forM f) = _
    rw [run_bind, same x List.mem_cons_self]
    exact ih fun y mem => same y (List.mem_cons_of_mem x mem)

lemma exists_of_run_forM {xs : List α} {f : α → Action PUnit}
    (ran : w.run (xs.forM f) = (.ok ⟨⟩, w')) :
    ∀ x ∈ xs, ∃ w₁ w₂ : World, w₁.run (f x) = (.ok ⟨⟩, w₂) := by
  induction xs generalizing w with
  | nil => simp
  | cons x xs ih =>
    obtain ⟨_, w₁, first, rest⟩ := exists_of_run_bind (f := fun _ => xs.forM f) ran
    intro y mem
    rcases List.mem_cons.1 mem with rfl | mem
    · exact ⟨w, w₁, first⟩
    · exact ih rest y mem

end World

-- The definition is opened without its equations, which take long to state.
lemma Backend.delete_memory {m m' : Memory} {bucket : String} {key : Path}
    (deleted : m.delete bucket key = .ok m') :
    (memory m).delete bucket key = (.ok (), memory m') := by
  delta delete
  dsimp only
  rw [deleted]

namespace Site

variable (s : Site) (b : Bucket) (cache : DescriptorCache)

lemma bucket_world : (⟨s.others.insert s.name b⟩ : Memory).bucket s.name = .ok b := by
  simp [Memory.bucket]

lemma insert_insert (b' : Bucket) :
    (s.others.insert s.name b).insert s.name b' = s.others.insert s.name b' := by
  refine Std.ExtTreeMap.ext_getElem? fun n => ?_
  rw [Std.ExtTreeMap.getElem?_insert, Std.ExtTreeMap.getElem?_insert,
    Std.ExtTreeMap.getElem?_insert]
  split <;> rfl

lemma answer_world (c : Call) : (s.world b cache).answer c = (s.world b cache).reply c := by
  cases c <;> rfl

lemma answer_openCache (n : RepositoryName) :
    (s.world b cache).answer (.openCache n) = (cache.openFor n, s.world b cache) := rfl

lemma answer_lookUp (n : RepositoryName) (d : Digest) :
    (s.world b cache).answer (.lookUp n d) = (cache.lookUp (some n) d, s.world b cache) := rfl

lemma answer_remember (n : RepositoryName) (d : Digest) (descriptor : Descriptor) :
    (s.world b cache).answer (.remember n d descriptor) =
      ((cache.remember (some n) d descriptor).1,
        s.world b (cache.remember (some n) d descriptor).2) := rfl

lemma answer_forget (n : RepositoryName) (d : Digest) :
    (s.world b cache).answer (.forget n d) =
      ((cache.forget (some n) d).1, s.world b (cache.forget (some n) d).2) := rfl

@[simp] theorem run_size? (key : Path) : (s.world b cache).run (Action.size? key) =
    (.ok ((b.content? key).map List.length), s.world b cache) := by
  rw [Action.size?, World.run_bind, World.run_call]
  change (s.world b cache).run (Action.unlessMissing
    ((⟨s.others.insert s.name b⟩ : Memory).metadata s.name key)) = _
  rw [Memory.metadata, bucket_world]
  cases hb : b.content? key with
  | none => 
    simp only [bind, Except.bind, hb]
    rfl
  | some content => 
    simp only [bind, Except.bind, hb]
    rfl

@[simp] theorem run_fetch? (key : Path) : (s.world b cache).run (Action.fetch? key) =
    (.ok (b.content? key), s.world b cache) := by
  rw [Action.fetch?, World.run_bind, World.run_call]
  change (s.world b cache).run (Action.unlessMissing
    ((⟨s.others.insert s.name b⟩ : Memory).download s.name key)) = _
  rw [Memory.download, bucket_world]
  cases hb : b.content? key with
  | none => 
    simp only [bind, Except.bind, hb]
    rfl
  | some content => 
    simp only [bind, Except.bind, hb]
    rfl

@[simp] theorem run_holds (key : Path) : (s.world b cache).run (Action.holds key) =
    (.ok (b.content? key).isSome, s.world b cache) := by
  simp [Action.holds]

@[simp] theorem run_store (key : Path) (content : Octets) :
    (s.world b cache).run (Action.store key content) =
      (.ok (), s.world (b.put key content) cache) := by
  have replied : (s.world b cache).answer (.upload key content) =
      (.ok (), s.world (b.put key content) cache) := by
    rw [answer_world, World.reply]
    simp only [world, Backend.upload, Memory.upload, Std.ExtTreeMap.getElem?_insert_self,
      Option.getD_some, insert_insert]
  rw [Action.store, World.run_bind, World.run_call, replied]
  rfl

@[simp] theorem run_erase (key : Path) : (s.world b cache).run (Action.erase key) =
    (.ok (), s.world (b.remove key) cache) := by
  have deleted : (⟨s.others.insert s.name b⟩ : Memory).delete s.name key =
      .ok ⟨s.others.insert s.name (b.remove key)⟩ := by
    rw [Memory.delete, bucket_world]
    exact congrArg (fun m => Except.ok (Memory.mk m)) (s.insert_insert b _)
  have left : (Backend.memory ⟨s.others.insert s.name b⟩).delete s.name key =
      (.ok (), .memory ⟨s.others.insert s.name (b.remove key)⟩) := Backend.delete_memory deleted
  have replied : (s.world b cache).answer (.delete key) =
      (.ok (), s.world (b.remove key) cache) := by
    rw [answer_world]
    exact congrArg (fun r => (r.1, { s.world b cache with backend := r.2 })) left
  rw [Action.erase, World.run_bind, World.run_call, replied]
  rfl

@[simp] theorem run_eraseIfHeld (key : Path) :
    (s.world b cache).run (Action.eraseIfHeld key) =
      (.ok (b.content? key).isSome, s.world (b.remove key) cache) := by
  rw [Action.eraseIfHeld, World.run_bind, run_holds]
  cases hb : b.content? key with
  | none => simp [Bucket.remove_of_content?_eq_none hb]
  | some content => simp

@[simp] theorem run_keysBelow (base : Path) : (s.world b cache).run (Action.keysBelow base) =
    (.ok (b.keys (some base)), s.world b cache) := by
  rw [Action.keysBelow, World.run_bind, World.run_call]
  change (s.world b cache).run (do
    return (← Action.unlessMissing
      ((⟨s.others.insert s.name b⟩ : Memory).list s.name (some base))).getD []) = _
  rw [Memory.list, bucket_world]
  rfl

lemma run_eraseAll (keys : List Path) : (s.world b cache).run (keys.forM Action.erase) =
    (.ok (), s.world (keys.foldl Bucket.remove b) cache) := by
  induction keys generalizing b with
  | nil => rfl
  | cons key keys ih =>
    change (s.world b cache).run (Action.erase key >>= fun _ => keys.forM Action.erase) = _
    rw [World.run_bind, run_erase]
    exact ih (b.remove key)

lemma run_eraseBelow (base : Path) :
    (s.world b cache).run (do
      let keys ← Action.keysBelow base
      keys.forM Action.erase
      return !keys.isEmpty : Action Bool) =
        (.ok !(b.keys (some base)).isEmpty,
          s.world ((b.keys (some base)).foldl Bucket.remove b) cache) := by
  rw [World.run_bind, run_keysBelow]
  dsimp only
  rw [World.run_bind, run_eraseAll]
  rfl

lemma eq_of_backend_eq {s : Site} {b b' : Bucket} {cache cache' : DescriptorCache}
    (h : (s.world b cache).backend = (s.world b' cache').backend) : b = b' := by
  have tables : s.others.insert s.name b = s.others.insert s.name b' :=
    Memory.mk.inj (Backend.memory.inj h)
  simpa using congrArg (·[s.name]?) tables

lemma eq_of_world_eq {s : Site} {b b' : Bucket} {cache cache' : DescriptorCache}
    (h : s.world b cache = s.world b' cache') : b = b' ∧ cache = cache' :=
  ⟨eq_of_backend_eq (congrArg World.backend h), congrArg World.cache h⟩

end Site
end ImageRegistry
