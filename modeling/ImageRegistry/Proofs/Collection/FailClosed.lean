import ImageRegistry.Proofs.Collection.Collecting
import ImageRegistry.Proofs.Program.Outages

/-! Collecting garbage under outages. Of every call it is shown that a failure of it is passed on,
so that nothing is taken for missing that could not be looked up; and that nothing is deleted as
long as it is not known what is in use. -/

namespace ImageRegistry

/-- The call changes nothing that is stored. -/
def Call.Spares : Call → Prop
  | .upload _ _ | .delete _ => False
  | .metadata _ | .download _ | .list _ | .urlFor _ | .openCache _ | .lookUp _ _ | .remember _ _ _
  | .forget _ _ => True

open ImageRegistry.Action Call

lemma World.kept_of_spares {c : Call} (spares : c.Spares) (w : World) :
    (w.answer c).2.backend = w.backend ∧ (w.answer c).2.bucket = w.bucket := by
  have replied (w : World) :
      (w.reply c).2.backend = w.backend ∧ (w.reply c).2.bucket = w.bucket := by
    cases c with
    | upload key content => exact spares.elim
    | delete key => exact spares.elim
    | _ => exact ⟨rfl, rfl⟩
  unfold World.answer
  split
  · exact replied w
  · split
    · exact replied _
    · exact ⟨rfl, rfl⟩

lemma World.kept_of_heeds {α : Type} {a : Action α} (heeds : a.Heeds Call.Spares) (w : World) :
    (w.run a).2.backend = w.backend ∧ (w.run a).2.bucket = w.bucket := by
  unfold World.run Action.run
  unfold Action.Heeds at heeds
  generalize ExceptT.run a = p at heeds ⊢
  induction p generalizing w with
  | done x => exact ⟨rfl, rfl⟩
  | ask c next ih =>
    obtain ⟨spares, later, -⟩ := heeds
    obtain ⟨backend, bucket⟩ := kept_of_spares spares w
    obtain ⟨backend', bucket'⟩ := ih _ (w.answer c).2 (later _)
    exact ⟨backend'.trans backend, bucket'.trans bucket⟩

lemma Repository.heeds_openNamed (settings : Settings) (n : RepositoryName) :
    (openNamed settings n).Heeds Spares := by
  unfold openNamed
  split_ifs
  · refine (Heeds.call trivial rfl).bind fun reply => ?_
    cases reply with
    | ok _ => exact .pure _
    | error e => exact .throw e
  · exact .pure _

lemma Repository.heeds_names : Repository.names.Heeds Spares :=
  (Heeds.whileListing _ (.keysBelow trivial)).bind fun _ => .pure _

namespace BlobStore

variable (store : BlobStore) (d : Digest)

lemma heeds_known {α : Type} (found : Option α) : (known d found).Heeds Spares := by
  cases found with
  | some a => exact .pure a
  | none => exact .throw _

lemma heeds_get : (store.get d).Heeds Spares := (Heeds.fetch? trivial).bind fun _ => heeds_known d _

lemma heeds_stat : (store.stat d).Heeds Spares :=
  (Heeds.size? trivial).bind fun _ => (heeds_known d _).bind fun _ => .pure _

lemma heeds_enumerate : store.enumerate.Heeds Spares :=
  (Heeds.keysBelow trivial).bind fun _ => .pure _

end BlobStore

namespace LinkStore

variable (links : LinkStore) (d : Digest)

lemma heeds_follow (kinds : List LinkKind) : (resolve.follow links d kinds).Heeds Spares := by
  induction kinds with
  | nil => exact .throw _
  | cons kind kinds ih =>
    refine (Heeds.fetch? trivial).bind fun found => ?_
    cases found with
    | none => exact ih
    | some content => exact (Heeds.liftExcept _).bind fun _ => BlobStore.heeds_stat _ _

lemma heeds_remember (descriptor : Descriptor) : (links.remember d descriptor).Heeds Spares := by
  unfold remember
  split_ifs
  · exact (Heeds.call trivial rfl).bind fun _ => .pure _
  · exact .pure _

lemma heeds_lookUp : (links.lookUp d).Heeds Spares := by
  unfold lookUp
  split_ifs
  · refine (Heeds.call trivial rfl).bind fun reply => ?_
    cases reply with
    | ok descriptor => exact .pure _
    | error e =>
      exact (heeds_follow links d _).bind fun _ => (heeds_remember links d _).bind fun _ => .pure _
  · exact heeds_follow links d _

lemma heeds_stat : (links.stat d).Heeds Spares := by
  unfold stat
  split_ifs
  · exact .throw _
  · exact heeds_lookUp links d

lemma heeds_get : (links.get d).Heeds Spares :=
  (heeds_stat links d).bind fun _ => BlobStore.heeds_get _ _

lemma heeds_enumerate : links.enumerate.Heeds Spares :=
  (Heeds.keysBelow trivial).bind fun _ => .pure _

end LinkStore

lemma Manifests.heeds_get (r : Repository) (d : Digest) : (get r d).Heeds Spares := by
  have found : (whenBlobUnknown (unknown r d) (r.manifests.get d)).Heeds Spares := by
    refine (LinkStore.heeds_get r.manifests d).tryCatch (fun e => ?_)
      fun x outage => ⟨x, outage, ?_⟩
    · cases e <;> exact .throw _
    · cases x <;> first | rfl | exact outage.elim
  exact found.bind fun _ => .orFail _ _

namespace Tags

variable (n : RepositoryName)

lemma heeds_find? (t : String) : (find? n t).Heeds Spares := by
  unfold find?
  refine (Heeds.fetch? trivial).bind fun found => ?_
  cases found with
  | none => exact .pure _
  | some content =>
    dsimp only
    generalize Digest.read (trimBlanks content.toTextLenient) = target
    exact (Heeds.liftExcept target).bind fun _ => .pure _

lemma heeds_all : (all n).Heeds Spares := (Heeds.keysBelow trivial).bind fun _ => .pure _

lemma heeds_standingFor (d : Digest) (ts : List String) : (standingFor n d ts).Heeds Spares := by
  induction ts with
  | nil => exact .pure _
  | cons t ts ih => exact (heeds_find? n t).bind fun _ => ih.bind fun _ => .pure _

lemma heeds_lookup (d : Digest) : (lookup n d).Heeds Spares :=
  (heeds_all n).bind fun _ => heeds_standingFor n d _

end Tags

namespace Marking

lemma heeds_load (r : Repository) (p : Pending) : (load r p).Heeds Spares := by
  refine ((Manifests.heeds_get r p.digest).map _).tryCatch (fun e => ?_) fun x outage =>
    ⟨x, outage, ?_⟩
  · cases e
    case manifestUnknown =>
      dsimp only
      split_ifs
      · exact .pure _
      · exact .throw _
    all_goals exact .throw _
  · cases x <;> first | rfl | exact outage.elim

lemma heeds_trace (r : Repository) (marks : MarkSet) (pending : List Pending) :
    (trace r marks pending).Heeds Spares := by
  induction marks, pending using trace.induct r with
  | case1 marks =>
    rw [trace]
    exact .pure _
  | case2 marks p rest marked ih =>
    rw [trace, dif_pos marked]
    exact ih
  | case3 marks p rest unmarked ihNone ihSome =>
    rw [trace, dif_neg unmarked]
    refine (heeds_load r p).bind fun found => ?_
    cases found with
    | none => exact ihNone
    | some m => exact ihSome m

lemma heeds_sort (options : CollectionOptions) (n : RepositoryName) (listed : List Digest)
    (pending : List Pending) : (sort options n listed pending).Heeds Spares := by
  induction listed generalizing pending with
  | nil => exact .pure _
  | cons d listed ih =>
    rw [sort]
    split_ifs
    · refine (Heeds.whileListing _ (Tags.heeds_lookup n d)).bind fun tags => ?_
      split_ifs
      · exact (Heeds.whileListing _ (Tags.heeds_all n)).bind fun _ => (ih _).bind fun _ => .pure _
      · exact ih _
    · exact ih _

lemma heeds_addTagged (n : RepositoryName) (listed : List Digest) (tags : List String)
    (pending : List Pending) : (addTagged n listed tags pending).Heeds Spares := by
  induction tags generalizing pending with
  | nil => exact .pure _
  | cons t tags ih =>
    rw [addTagged]
    refine (Heeds.whileListing _ (Tags.heeds_find? n t)).bind fun found => ?_
    cases found with
    | none => exact ih _
    | some d =>
      dsimp only
      split_ifs <;> exact ih _

lemma heeds_markRepository (options : CollectionOptions) (r : Repository) (found : Marking) :
    (markRepository options r found).Heeds Spares :=
  (Heeds.whileListing _ (LinkStore.heeds_enumerate r.manifests)).bind fun _ =>
    (heeds_sort options r.name _ _).bind fun _ =>
      (Heeds.whileListing _ (Tags.heeds_all r.name)).bind fun _ =>
        (heeds_addTagged r.name _ _ _).bind fun _ => (heeds_trace r _ _).bind fun _ => .pure _

lemma heeds_markNamed (options : CollectionOptions) (settings : Settings)
    (names : List RepositoryName) (found : Marking) :
    (markNamed options settings names found).Heeds Spares := by
  induction names generalizing found with
  | nil => exact .pure _
  | cons n names ih =>
    exact (Repository.heeds_openNamed settings n).bind fun r =>
      (heeds_markRepository options r found).bind fun _ => (ih _).bind fun _ => .pure _

end Marking

abbrev Call.Any (_ : Call) : Prop := True

namespace Removal

lemma heeds_erase (r : Record) : (erase r).Heeds Any :=
  (Heeds.eraseIfHeld trivial trivial).bind fun _ => .pure _

lemma heeds_manifest (n : RepositoryName) (d : Digest) (tags : List String) :
    (manifest n d tags).Heeds Any :=
  (Heeds.forM fun _ _ => heeds_erase _).bind fun _ => (heeds_erase _).bind fun _ => heeds_erase _

lemma heeds_repositoryBlob (settings : Settings) (n : RepositoryName) (d : Digest) :
    (repositoryBlob settings n d).Heeds Any := by
  unfold repositoryBlob
  split_ifs
  · exact (heeds_erase _).bind fun _ => heeds_erase _
  · exact heeds_erase _

end Removal

namespace Collector

lemma heeds_mark (options : CollectionOptions) (settings : Settings)
    (scope : Option RepositoryName) : (mark options settings scope).Heeds Spares := by
  cases scope with
  | some n =>
    exact (Repository.heeds_openNamed settings n).bind fun r =>
      (Marking.heeds_markRepository options r {}).bind fun _ => .pure _
  | none =>
    exact Repository.heeds_names.bind fun _ => Marking.heeds_markNamed options settings _ _

lemma heeds_unlessDry (options : CollectionOptions) {a : Action Unit} (ha : a.Heeds Any) :
    (unlessDry options a).Heeds Any := by
  unfold unlessDry
  split_ifs
  · exact .pure _
  · exact ha

lemma heeds_candidates (r : Repository) : (candidates r).Heeds Any := by
  refine Heeds.whileListing _ (Heeds.mono (A := Spares) ?_ fun _ _ => trivial)
  split_ifs
  · exact BlobStore.heeds_enumerate _
  · exact LinkStore.heeds_enumerate _

lemma heeds_sweepRepository (options : CollectionOptions) (marks : MarkSet) (r : Repository) :
    (sweepRepository options marks r).Heeds Any :=
  (heeds_candidates r).bind fun _ =>
    (Heeds.forM fun _ _ => heeds_unlessDry options (Removal.heeds_repositoryBlob _ _ _)).bind
      fun _ => .pure _

lemma heeds_sweepAll (options : CollectionOptions) (marks : MarkSet) (rs : List Repository)
    (report : CollectionReport) : (sweepAll options marks rs report).Heeds Any := by
  induction rs generalizing report with
  | nil => exact .pure _
  | cons r rs ih => exact (heeds_sweepRepository options marks r).bind fun _ => ih _

lemma heeds_sweep (options : CollectionOptions) (rs : List Repository) (found : Marking) :
    (sweep options rs found).Heeds Any :=
  (Heeds.forM fun _ _ => heeds_unlessDry options (Removal.heeds_manifest _ _ _)).bind fun _ =>
    heeds_sweepAll options _ _ _

lemma heeds_sweepShared (options : CollectionOptions) (marks : MarkSet) :
    (sweepShared options marks).Heeds Any :=
  (Heeds.whileListing _ ((BlobStore.heeds_enumerate .shared).mono fun _ _ => trivial)).bind fun _ =>
    (Heeds.forM fun _ _ => heeds_unlessDry options (Removal.heeds_erase _)).bind fun _ => .pure _

lemma heeds_finish (options : CollectionOptions) (settings : Settings)
    (scope : Option RepositoryName) (marked : List Repository × Marking) :
    (finish options settings scope marked).Heeds Any := by
  refine (heeds_sweep options marked.1 marked.2).bind fun report => ?_
  split_ifs
  · exact .pure _
  · exact (heeds_sweepShared options _).bind fun _ => .pure _

theorem heeds_collect (options : CollectionOptions) (settings : Settings)
    (scope : Option RepositoryName) : (collect options settings scope).Heeds Any := by
  rw [collect_eq]
  exact ((heeds_mark options settings scope).mono fun _ _ => trivial).bind
    (heeds_finish options settings scope)

/-- Under outages of any kind a run fails if one of its calls does, and the error tells of it. Until
then it deletes what it would delete without outages, and in the same order. Its first calls are
those that mark what is in use: if one of these fails nothing is deleted. -/
theorem collect_failsClosed (w : World) (settings : Settings) (options : CollectionOptions)
    (scope : Option RepositoryName) (outages : Outages) :
    let start : Trial := { world := w }
    let tried := start.run outages (collect options settings scope)
    let smooth := start.run .never (collect options settings scope)
    let marking := start.run outages (mark options settings scope)
    (w.faults = [] → (smooth.1, smooth.2.world) = w.run (collect options settings scope)) ∧
    (tried.2.HasFailed → ∃ x, x.IsOutage ∧ tried.1 = .error x) ∧
    tried.2.deleted <+: smooth.2.deleted ∧
    marking.2.calls <+: tried.2.calls ∧
    (marking.2.HasFailed → tried.2.deleted = []) := by
  intro start tried smooth marking
  have heeds := heeds_collect options settings scope
  have begins := Trial.run_bind outages start (mark options settings scope)
    (finish options settings scope)
  rw [← collect_eq] at begins
  refine ⟨fun fine => Trial.run_never _ fine, Trial.error_of_hasFailed heeds outages w,
    Trial.deleted_prefix heeds outages w, ?_, fun failed => ?_⟩
  · cases ended : marking with
    | mk x t =>
      rw [show start.run outages (mark options settings scope) = _ from ended] at begins
      rw [show tried = _ from begins]
      cases x with
      | error e => exact List.prefix_rfl
      | ok marked =>
        obtain ⟨later, grown⟩ := Program.exists_calls
          (ExceptT.run (finish options settings scope marked)) outages t
        exact ⟨later, grown.symm⟩
  · -- as marking fails the run ends there
    obtain ⟨x, -, error⟩ :=
      Trial.error_of_hasFailed (heeds_mark options settings scope) outages w failed
    have ended : start.run outages (mark options settings scope) = (.error x, marking.2) :=
      Prod.ext error rfl
    rw [ended] at begins
    rw [show tried = _ from begins]
    exact Trial.deleted_eq_nil (heeds_mark options settings scope) (fun _ => id) outages w

/-- If repositories cannot be listed that is all that is tried. -/
example (w : World) (settings : Settings) :
    let down : StorageError := { kind := .io, engine := "memory", source := "down" }
    let outages : Outages := ⟨fun _ => some down, fun _ _ same => Option.some.inj same ▸ rfl⟩
    ((Trial.mk w []).run outages (collect {} settings none)).2.calls =
      [(.list Layout.repositories, false)] := by
  rfl

end Collector
end ImageRegistry
