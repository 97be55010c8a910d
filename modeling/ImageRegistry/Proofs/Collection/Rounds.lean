import Mathlib.Data.Set.Card
import Mathlib.Data.Set.Finite.Basic
import ImageRegistry.Proofs.Collection.FailClosed

/-! Rounds of marking, against any storage: which manifests are loaded while a repository is traced.
None is loaded twice, even if manifests refer to each other, so that the rounds come to an end. -/

namespace ImageRegistry

open World

/-- There are only so many digests. -/
instance : Finite Digest := by
  refine Finite.of_injective (β := { w : List Char // w ∈ MarkSet.hexWords 64 })
    (fun d => ⟨d.hex.toList, ?_⟩) fun d e same => ?_
  · have digits := d.isHex
    simp only [isDigestHex, Bool.and_eq_true, beq_iff_eq] at digits
    exact digits.1 ▸ MarkSet.mem_hexWords digits.2
  · have hex : d.hex = e.hex := String.toList_inj.1 (congrArg Subtype.val same)
    cases d
    cases e
    cases hex
    rfl

/-- A manifest can be read from a blob store. -/
def World.CanRead (w : World) (store : BlobStore) (m : Manifest) : Prop :=
  ∃ d content, w.backend.download w.bucket (store.key d) = .ok content ∧
    Manifest.ofPayload none content = .ok m

lemma World.canRead_congr {w w' : World} (kept : w'.backend = w.backend ∧ w'.bucket = w.bucket)
    (store : BlobStore) : w'.CanRead store = w.CanRead store := by
  unfold World.CanRead
  rw [kept.1, kept.2]

/-- The digests that manifests in a blob store refer to. -/
def World.referred (w : World) (store : BlobStore) : Set Digest :=
  { d | ∃ m, w.CanRead store m ∧ d ∈ m.references.map Descriptor.digest }

lemma World.download_of_fetch? {w w' : World} {key : Path} {content : Octets}
    (ran : w.run (Action.fetch? key) = (.ok (some content), w')) :
    w.backend.download w.bucket key = .ok content := by
  rw [Action.fetch?, run_bind, run_call] at ran
  have replied : (w.answer (.download key)).1 = .ok content := by
    generalize (w.answer (.download key)).2 = w₁ at ran
    generalize (w.answer (.download key)).1 = reply at ran
    change w₁.run (Action.unlessMissing reply) = _ at ran
    change Except StorageError Octets at reply
    cases reply with
    | ok found =>
      rw [Action.unlessMissing, run_pure] at ran
      cases ran
      rfl
    | error e =>
      rw [Action.unlessMissing] at ran
      split_ifs at ran <;> cases ran
  unfold World.answer Call.storageSite? at replied
  dsimp only at replied
  split at replied
  · exact replied
  · cases replied

lemma Manifests.canRead_of_get {w w' : World} {r : Repository} {d : Digest} {m : Manifest}
    (ran : w.run (Manifests.get r d) = (.ok m, w')) : w.CanRead r.blobStore m := by
  obtain ⟨content, w₁, found, read⟩ := exists_of_run_bind ran
  have got : w.run (r.manifests.get d) = (.ok content, w₁) := by
    rw [whenBlobUnknown, run_tryCatch] at found
    generalize w.run (r.manifests.get d) = got at found ⊢
    obtain ⟨x | e, w₂⟩ := got
    · cases x <;> cases found
    · exact found
  obtain ⟨descriptor, w₂, looked, stored⟩ := exists_of_run_bind got
  obtain ⟨found?, w₃, fetched, known⟩ := exists_of_run_bind stored
  obtain rfl : found? = some content := by
    cases found? with
    | none => cases known
    | some content' => cases known; rfl
  have kept := kept_of_heeds (LinkStore.heeds_stat r.manifests d) w
  rw [looked] at kept
  refine ⟨descriptor.digest, content, ?_, ?_⟩
  · rw [← kept.1, ← kept.2]
    exact download_of_fetch? fetched
  · rw [run_orFail] at read
    cases parsed : Manifest.ofPayload none content with
    | ok m' => rw [parsed] at read; cases read; rfl
    | error e => rw [parsed] at read; cases read

namespace Marking

lemma canRead_of_load {w w' : World} {r : Repository} {p : Pending} {m : Manifest}
    (ran : w.run (load r p) = (.ok (some m), w')) : w.CanRead r.blobStore m := by
  cases got : w.run (Manifests.get r p.digest) with
  | mk x w₁ =>
    rw [run_load got] at ran
    obtain rfl := loaded_eq_some (Prod.mk.inj ran).1
    exact Manifests.canRead_of_get got

def marksAfter (n : RepositoryName) (marks : MarkSet) (p : Pending) (found : Option Manifest) :
    MarkSet := (marks.mark n p.digest).markAll n (found.elim [] parts)

def pendingAfter (found : Option Manifest) (rest : List Pending) : List Pending :=
  (found.elim [] children).reverse.map (fun d => ⟨d, true⟩) ++ rest

/-- The rounds in which pending manifests are gone through: the digests for which manifests are
loaded, one after the other, the number of rounds, and what they come to. -/
inductive Rounds (r : Repository) : World → MarkSet → List Pending →
    List Digest → ℕ → Except RegistryError MarkSet × World → Prop
  /-- Nothing is pending. -/
  | finish {w marks} : Rounds r w marks [] [] 0 (.ok marks, w)
  /-- What is marked is not loaded. -/
  | skip {w marks p rest loads n result} (marked : marks.containsIn r.name p.digest = true)
      (later : Rounds r w marks rest loads n result) :
      Rounds r w marks (p :: rest) loads (n + 1) result
  /-- A manifest that cannot be loaded is the end. -/
  | fail {w w' marks p rest e} (unmarked : marks.containsIn r.name p.digest = false)
      (ran : w.run (load r p) = (.error e, w')) :
      Rounds r w marks (p :: rest) [p.digest] 1 (.error e, w')
  /-- What a manifest refers to, if it is not missing, is marked or becomes pending. -/
  | load {w w' marks p rest found loads n result}
      (unmarked : marks.containsIn r.name p.digest = false)
      (ran : w.run (load r p) = (.ok found, w'))
      (later : Rounds r w' (marksAfter r.name marks p found) (pendingAfter found rest)
        loads n result) :
      Rounds r w marks (p :: rest) (p.digest :: loads) (n + 1) result

theorem exists_rounds (r : Repository) (w : World) (marks : MarkSet) (pending : List Pending) :
    ∃ loads n, Rounds r w marks pending loads n (w.run (trace r marks pending)) := by
  induction marks, pending using trace.induct r generalizing w with
  | case1 marks =>
    rw [trace]
    exact ⟨[], 0, .finish⟩
  | case2 marks p rest marked ih =>
    rw [trace, dif_pos marked]
    obtain ⟨loads, n, later⟩ := ih w
    exact ⟨loads, n + 1, .skip marked later⟩
  | case3 marks p rest unmarked ihNone ihSome =>
    rw [trace, dif_neg unmarked, run_bind]
    have unmarked := Bool.eq_false_iff.2 unmarked
    cases ran : w.run (load r p) with
    | mk x w' =>
      rcases x with e | _ | m
      · exact ⟨[p.digest], 1, .fail unmarked ran⟩
      · obtain ⟨loads, n, later⟩ := ihNone w'
        exact ⟨p.digest :: loads, n + 1, .load unmarked ran later⟩
      · obtain ⟨loads, n, later⟩ := ihSome m w'
        exact ⟨p.digest :: loads, n + 1, .load unmarked ran later⟩

lemma unmarked_of_marksAfter {n : RepositoryName} {marks : MarkSet} {p : Pending}
    {found : Option Manifest} {d : Digest}
    (unmarked : (marksAfter n marks p found).containsIn n d = false) :
    d ≠ p.digest ∧ marks.containsIn n d = false := by
  rw [← Bool.not_eq_true, marksAfter, MarkSet.containsIn_markAll, MarkSet.containsIn_mark]
    at unmarked
  refine ⟨fun same => unmarked (.inr (.inl ⟨rfl, same⟩)), Bool.eq_false_iff.2 fun marked => ?_⟩
  exact unmarked (.inr (.inr marked))

namespace Rounds

variable {r : Repository} {w : World} {marks : MarkSet} {pending : List Pending}
  {loads : List Digest} {n : ℕ} {result : Except RegistryError MarkSet × World}

lemma unique (rounds : Rounds r w marks pending loads n result) {loads' : List Digest} {n' : ℕ}
    {result' : Except RegistryError MarkSet × World}
    (rounds' : Rounds r w marks pending loads' n' result') :
    loads = loads' ∧ n = n' ∧ result = result' := by
  induction rounds generalizing loads' n' with
  | finish =>
    cases rounds'
    exact ⟨rfl, rfl, rfl⟩
  | skip marked later ih =>
    cases rounds' with
    | skip _ later' =>
      obtain ⟨rfl, rfl, rfl⟩ := ih later'
      exact ⟨rfl, rfl, rfl⟩
    | fail unmarked | load unmarked =>
      rw [marked] at unmarked
      cases unmarked
  | fail unmarked ran =>
    cases rounds' with
    | skip marked =>
      rw [unmarked] at marked
      cases marked
    | fail _ ran' =>
      cases ran.symm.trans ran'
      exact ⟨rfl, rfl, rfl⟩
    | load _ ran' => cases ran.symm.trans ran'
  | load unmarked ran later ih =>
    cases rounds' with
    | skip marked =>
      rw [unmarked] at marked
      cases marked
    | fail _ ran' => cases ran.symm.trans ran'
    | load _ ran' later' =>
      cases ran.symm.trans ran'
      obtain ⟨rfl, rfl, rfl⟩ := ih later'
      exact ⟨rfl, rfl, rfl⟩

lemma fresh (rounds : Rounds r w marks pending loads n result) :
    loads.Nodup ∧ ∀ d ∈ loads, marks.containsIn r.name d = false := by
  induction rounds with
  | finish => exact ⟨List.nodup_nil, by simp⟩
  | skip _ _ ih => exact ih
  | fail unmarked => exact ⟨List.nodup_singleton _, by simpa using unmarked⟩
  | @load _ _ _ p _ _ loads _ _ unmarked _ _ ih =>
    obtain ⟨nodup, later⟩ := ih
    refine ⟨List.nodup_cons.2 ⟨fun mem => (unmarked_of_marksAfter (later _ mem)).1 rfl, nodup⟩,
      List.forall_mem_cons.2 ⟨unmarked, fun d mem => (unmarked_of_marksAfter (later d mem)).2⟩⟩

lemma known (rounds : Rounds r w marks pending loads n result) :
    ∀ d ∈ loads, (∃ p ∈ pending, p.digest = d) ∨ d ∈ w.referred r.blobStore := by
  induction rounds with
  | finish => simp
  | skip _ _ ih =>
    exact fun d mem => (ih d mem).imp_left fun ⟨q, before, same⟩ =>
      ⟨q, List.mem_cons_of_mem _ before, same⟩
  | fail => simp
  | @load w w' _ p rest found _ _ _ _ ran _ ih =>
    have kept := kept_of_heeds (heeds_load r p) w
    rw [ran] at kept
    have same : w'.referred r.blobStore = w.referred r.blobStore := by
      rw [World.referred, canRead_congr kept, World.referred]
    refine List.forall_mem_cons.2 ⟨.inl ⟨p, List.mem_cons_self, rfl⟩, fun d mem => ?_⟩
    rcases ih d mem with ⟨q, before, rfl⟩ | referred
    · rcases List.mem_append.1 before with child | before
      · obtain ⟨e, isChild, rfl⟩ := List.mem_map.1 child
        cases found with
        | none => cases isChild
        | some m =>
          exact .inr ⟨m, canRead_of_load ran,
            mem_references_iff.2 (.inl (List.mem_reverse.1 isChild))⟩
      · exact .inl ⟨q, List.mem_cons_of_mem p before, rfl⟩
    · exact .inr (same ▸ referred)

lemma length_loads_le (rounds : Rounds r w marks pending loads n result) :
    loads.length ≤
      ({ d | ∃ p ∈ pending, p.digest = d } ∪ w.referred r.blobStore : Set Digest).ncard := by
  classical
  have distinct := List.toFinset_card_of_nodup rounds.fresh.1
  rw [← distinct, ← Set.ncard_coe_finset]
  refine Set.ncard_le_ncard (fun d mem => rounds.known d ?_) (Set.toFinite _)
  simpa using mem

/-- Each round takes one of the manifests that were pending, or of the children of those that were
loaded. -/
lemma rounds_le (rounds : Rounds r w marks pending loads n result) {k : ℕ}
    (few : ∀ m, w.CanRead r.blobStore m → (children m).length ≤ k) :
    n ≤ pending.length + loads.length * k := by
  induction rounds with
  | finish => exact Nat.zero_le _
  | skip _ _ ih =>
    have later := ih few
    simp only [List.length_cons]
    omega
  | fail => simp only [List.length_cons, List.length_nil]; omega
  | @load w w' _ p rest found loads n _ _ ran _ ih =>
    have kept := kept_of_heeds (heeds_load r p) w
    rw [ran] at kept
    have later := ih (canRead_congr kept r.blobStore ▸ few)
    have born : (found.elim [] children).length ≤ k := by
      cases found with
      | none => exact Nat.zero_le k
      | some m => exact few m (canRead_of_load ran)
    simp only [pendingAfter, List.length_append, List.length_map, List.length_reverse] at later
    simp only [List.length_cons, Nat.add_mul, Nat.one_mul]
    omega

end Rounds

/-- What is pending before anything is marked, and the manifests without a tag. -/
def gather (options : CollectionOptions) (r : Repository) :
    Action (List Pending × List ManifestDeletion) := do
  let listed ← Action.whileListing s!"manifests in {r.name}" (Manifests.enumerate r)
  let (pending, untagged) ← sort options r.name listed []
  let tags ← Action.whileListing s!"tags in {r.name}" (Tags.all r.name)
  let pending ← addTagged r.name listed tags pending
  return (pending, untagged)

/-- What was found once everything is marked. -/
def conclude (r : Repository) (found : Marking) (untagged : List ManifestDeletion)
    (marks : MarkSet) : Marking where
  marks := marks
  deletions := found.deletions ++
    untagged.filter fun deletion => !marks.containsIn r.name deletion.digest

lemma markRepository_eq (options : CollectionOptions) (r : Repository) (found : Marking) :
    markRepository options r found = (do
      let (pending, untagged) ← gather options r
      conclude r found untagged <$> trace r found.marks pending) := by
  simp only [markRepository, gather, bind_assoc, pure_bind, map_eq_pure_bind]
  rfl

lemma heeds_gather (options : CollectionOptions) (r : Repository) :
    (gather options r).Heeds Call.Spares :=
  (Action.Heeds.whileListing _ (LinkStore.heeds_enumerate r.manifests)).bind fun _ =>
    (heeds_sort options r.name _ _).bind fun _ =>
      (Action.Heeds.whileListing _ (Tags.heeds_all r.name)).bind fun _ =>
        (heeds_addTagged r.name _ _ _).bind fun _ => .pure _

/-- Whatever is stored, marking a repository comes to an end: either its manifests or tags cannot be
listed, or there is one way to go through what is pending. No manifest is loaded twice, none that
was marked before, and no more than there are pending and referred digests. -/
theorem markRepository_rounds (options : CollectionOptions) (r : Repository) (found : Marking)
    (w : World) :
    (∃ e w', w.run (gather options r) = (.error e, w') ∧
      w.run (markRepository options r found) = (.error e, w')) ∨
    ∃ pending untagged w' loads n marked,
      w.run (gather options r) = (.ok (pending, untagged), w') ∧
      Rounds r w' found.marks pending loads n marked ∧
      (∀ loads' n' marked', Rounds r w' found.marks pending loads' n' marked' →
        loads' = loads ∧ n' = n ∧ marked' = marked) ∧
      w.run (markRepository options r found) =
        (marked.1.map (conclude r found untagged), marked.2) ∧
      loads.Nodup ∧ (∀ d ∈ loads, found.marks.containsIn r.name d = false) ∧
      loads.length ≤
        ({ d | ∃ p ∈ pending, p.digest = d } ∪ w.referred r.blobStore : Set Digest).ncard ∧
      ∀ k, (∀ m, w.CanRead r.blobStore m → (children m).length ≤ k) →
        n ≤ pending.length + loads.length * k := by
  have kept := kept_of_heeds (heeds_gather options r) w
  rw [markRepository_eq, run_bind]
  cases gathered : w.run (gather options r) with
  | mk reply w' =>
    rw [gathered] at kept
    rcases reply with e | ⟨pending, untagged⟩
    · exact .inl ⟨e, w', rfl, rfl⟩
    · have same := canRead_congr kept r.blobStore
      obtain ⟨loads, n, rounds⟩ := exists_rounds r w' found.marks pending
      obtain ⟨nodup, fresh⟩ := rounds.fresh
      have bound := rounds.length_loads_le
      have few := @rounds.rounds_le
      rw [World.referred, same] at bound
      rw [same] at few
      refine .inr ⟨pending, untagged, w', loads, n, _, rfl, rounds,
        fun _ _ _ other => other.unique rounds, ?_, nodup, fresh, bound, fun k => few⟩
      change w'.run (conclude r found untagged <$> trace r found.marks pending) = _
      rw [run_map]
      generalize w'.run (trace r found.marks pending) = marked
      obtain ⟨_ | _, _⟩ := marked <;> rfl

end Marking

end ImageRegistry
