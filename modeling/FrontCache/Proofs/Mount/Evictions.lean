import FrontCache.Proofs.Mount.Actions
/-!
# Evictions

A store call checks the entries it is handed against the nodes at their paths, and fails for
absence when an entry no longer names the node there (`Store.Holds` fails: the node is gone, or
another node with another id stands there). Behind `evictOnNotFound` such a failure makes the
volume forget the paths it handed the call.

Main statements: every store call the volume runs behind an eviction fails for absence only
when one of the entries it was handed is stale (`Store.Blames`), so an eviction forgets paths
only then (`evictions_follow_stale_entries`). A call handed one entry forgets only a stale
path. A copy, rename or move is handed two, the source's and that of the folder the target
goes into, and forgets both when either is stale: a copy from a source removed behind the
volume forgets the live folder it was to copy into, and takes it out of its parent's cached
listing (`failed_copy_forgets_live_folder`).
-/
namespace FrontCache

namespace Store

/-- The store still holds, at `p`, the node that `e` was read from: a node with `e`'s id. -/
def Holds (s : Store) (p : Path) (e : Entry) : Prop := ∃ n, s.node? p = some n ∧ n.id = e.id

theorem live_eq_error {s : Store} {p : Path} {e : Entry} {err : Error}
    (h : s.live p e = .error err) : err = .notFound p ∧ ¬ s.Holds p e := by
  refine ⟨?_, fun ⟨n, hn, hid⟩ => ?_⟩
  · unfold live at h
    split at h
    · split at h
      · cases h
      · cases h
        rfl
    · cases h
      rfl
  · rw [live_eq_ok.2 ⟨hn, hid⟩] at h
    cases h

/-- A folder check fails for absence only on a stale entry; on a file it fails otherwise. -/
theorem liveFolder_eq_error {s : Store} {p : Path} {e : Entry} {err : Error}
    (h : s.liveFolder p e = .error err) (hnf : err.isNotFound = true) : ¬ s.Holds p e := by
  rintro ⟨⟨id, b⟩, hn, hid⟩
  unfold liveFolder at h
  rw [live_eq_ok.2 ⟨hn, hid⟩] at h
  cases b with
  | folder cs => cases h
  | file data =>
    cases h
    cases hnf

/-! ### Tree operations fail for absence only without a folder above -/

theorem link_eq_error {s : Store} {p : Path} {err : Error} (h : s.link p = .error err)
    (hnf : err.isNotFound = true) : ∃ d name, p.split? = some (d, name) ∧ s.node? d = none := by
  unfold link at h
  split at h
  · cases h
    cases hnf
  · rename_i d name hsplit
    split at h
    · cases h
    · cases h
      cases hnf
    · exact ⟨d, name, hsplit, by assumption⟩

theorem insert_eq_error {s : Store} {p : Path} {b : Body} {err : Error}
    (h : s.insert p b = .error err) (hnf : err.isNotFound = true) :
    ∃ d name, p.split? = some (d, name) ∧ s.node? d = none := by
  unfold insert at h
  by_cases hc : s.nodes.contains p = true
  · simp only [hc, ↓reduceIte] at h
    cases h
    cases hnf
  · simp only [hc, Bool.false_eq_true, ↓reduceIte] at h
    cases hl : s.link p with
    | ok s1 =>
      rw [hl] at h
      cases h
    | error e =>
      rw [hl] at h
      cases h
      exact link_eq_error hl hnf

theorem relocate_eq_error {s : Store} {src dst : Path} {err : Error}
    (h : s.relocate src dst = .error err) (hnf : err.isNotFound = true) :
    (∃ d name, dst.split? = some (d, name) ∧ s.node? d = none) ∨ s.node? src = none := by
  have hfree : s.node? dst = none := by
    by_contra hne
    have hc : s.nodes.contains dst = true := Option.isSome_iff_ne_none.2 hne
    simp only [relocate, hc, ↓reduceIte] at h
    cases h
    cases hnf
  have hc : s.nodes.contains dst = false := by simpa [Table.contains, node?] using hfree
  have hb : dst.isBelow src = false := by
    by_contra hb
    simp only [Bool.not_eq_false] at hb
    simp only [relocate, hc, hb, Bool.false_eq_true, ↓reduceIte] at h
    cases h
    cases hnf
  cases hl : s.link dst with
  | error e =>
    left
    simp only [relocate, hc, hb, hl, Bool.false_eq_true, ↓reduceIte] at h
    cases h
    exact link_eq_error hl hnf
  | ok s1 =>
    right
    by_contra hsrc
    obtain ⟨d, name, id, cs, hs, hd, -⟩ := link_eq_ok hl
    obtain ⟨e, s', hok⟩ := relocate_ok hfree hb hs hd (Option.isSome_iff_ne_none.2 hsrc)
    rw [hok] at h
    cases h

/-- The folder above a path is there when its entry passed the folder check. -/
theorem node?_above_of_liveFolder {s : Store} {p d : Path} {name : String} {parent : Entry}
    {cs : List String} (hp : p.split? = some (d, name))
    (h : s.liveFolder (holder p) parent = .ok cs) : s.node? d = some ⟨parent.id, .folder cs⟩ := by
  rw [← holder_of_split? hp]
  exact liveFolder_eq_ok.1 h

/-- A move whose source is there and whose target's folder passed its check does not fail for
absence. -/
theorem relocate_error_isNotFound {s : Store} {sp t : Path} {parent : Entry} {cs : List String}
    {err : Error} (h : s.relocate sp t = .error err) (hsrc : s.node? sp ≠ none)
    (hcs : s.liveFolder (holder t) parent = .ok cs) : err.isNotFound = false := by
  by_contra hnf
  rcases relocate_eq_error h (by simpa using hnf) with ⟨d, name, hs, hd⟩ | hsp
  · rw [node?_above_of_liveFolder hs hcs] at hd
    cases hd
  · exact hsrc hsp

/-- The same for putting a node in: under a folder that passed its check, an insert does not
fail for absence. -/
theorem insert_error_isNotFound {s : Store} {p : Path} {b : Body} {parent : Entry}
    {cs : List String} {err : Error} (h : s.insert p b = .error err)
    (hcs : s.liveFolder (holder p) parent = .ok cs) : err.isNotFound = false := by
  by_contra hnf
  obtain ⟨d, name, hs, hd⟩ := insert_eq_error h (by simpa using hnf)
  rw [node?_above_of_liveFolder hs hcs] at hd
  cases hd

/-! ### Each call blames the entries it was handed -/

open Std.Do

set_option mvcgen.warning false

/-- A store call blames the entries it was handed, each with its path: it fails for absence
only when the store no longer holds one of them. -/
def Blames {α : Type} (x : StoreM α) (handed : List (Path × Entry)) : Prop :=
  ∀ s0, ⦃fun s => ⌜s = s0⌝⦄ x ⦃post⟨fun _ _ => ⌜True⌝,
    fun err _ => ⌜err.isNotFound = true → ∃ pe ∈ handed, ¬ s0.Holds pe.1 pe.2⌝⟩⦄

section Checks

variable {s : Store} {p : Path} {e : Entry} {err : Error} {handed : List (Path × Entry)}

theorem blames_of_live (h : s.live p e = .error err) (hp : (p, e) ∈ handed) :
    err.isNotFound = true → ∃ pe ∈ handed, ¬ s.Holds pe.1 pe.2 :=
  fun _ => ⟨(p, e), hp, (live_eq_error h).2⟩

theorem blames_of_liveFolder (h : s.liveFolder p e = .error err) (hp : (p, e) ∈ handed) :
    err.isNotFound = true → ∃ pe ∈ handed, ¬ s.Holds pe.1 pe.2 :=
  fun hnf => ⟨(p, e), hp, liveFolder_eq_error h hnf⟩

end Checks

theorem lookupChild_blames (parent : Entry) (d : Path) (name : String) :
    Blames (lookupChild parent d name) [(d, parent)] := by
  intro s0
  unfold lookupChild listChildren count check
  mvcgen
  all_goals subst_vars
  have hf := ‹Store.liveFolder _ d parent = .error _›
  exact blames_of_liveFolder hf (by simp)

theorem listChildren_blames (dir : Entry) (d : Path) : Blames (listChildren dir d) [(d, dir)] := by
  intro s0
  unfold listChildren count check
  mvcgen
  all_goals subst_vars
  have hf := ‹Store.liveFolder _ d dir = .error _›
  exact blames_of_liveFolder hf (by simp)

theorem createFolder_blames (parent : Entry) (p : Path) :
    Blames (createFolder parent p) [(holder p, parent)] := by
  intro s0
  unfold createFolder count check apply
  mvcgen
  all_goals subst_vars
  case vc1 =>
    have hins := ‹Store.insert _ p _ = .error _›
    have hcs := ‹Store.liveFolder _ (holder p) parent = .ok _›
    intro hnf
    rw [insert_error_isNotFound hins hcs] at hnf
    cases hnf
  case vc2 =>
    have hf := ‹Store.liveFolder _ (holder p) parent = .error _›
    exact blames_of_liveFolder hf (by simp)

theorem hasChildren_blames (dir : Entry) (p : Path) : Blames (hasChildren dir p) [(p, dir)] := by
  intro s0
  unfold hasChildren count check
  mvcgen
  all_goals subst_vars
  have hf := ‹Store.liveFolder _ p dir = .error _›
  exact blames_of_liveFolder hf (by simp)

theorem remove_blames (e : Entry) (p : Path) : Blames (remove e p) [(p, e)] := by
  intro s0
  unfold remove count check
  mvcgen
  all_goals subst_vars
  · intro hnf
    cases hnf
  · have hl := ‹Store.live _ p e = .error _›
    exact blames_of_live hl (by simp)

theorem download_blames (e : Entry) (p : Path) : Blames (download e p) [(p, e)] := by
  intro s0
  unfold download count check
  mvcgen
  all_goals subst_vars
  · intro hnf
    cases hnf
  · have hl := ‹Store.live _ p e = .error _›
    exact blames_of_live hl (by simp)

theorem upload_blames (parent : Entry) (p : Path) (replace append : Bool) :
    Blames (upload parent p replace append) [(holder p, parent)] := by
  intro s0
  unfold upload count check
  mvcgen
  all_goals subst_vars
  · intro hnf
    cases hnf
  · intro hnf
    cases hnf
  · have hf := ‹Store.liveFolder _ (holder p) parent = .error _›
    exact blames_of_liveFolder hf (by simp)

theorem copy_blames (src parent : Entry) (sp t : Path) (replace : Bool) :
    Blames (copy src parent sp t replace) [(sp, src), (holder t, parent)] := by
  intro s0
  unfold copy count check apply
  mvcgen
  all_goals subst_vars
  case vc1 =>
    -- the target was taken out first: its folder, which passed the check, is still there
    have hins := ‹Store.insert _ t _ = .error _›
    have hcs := ‹Store.liveFolder _ (holder t) parent = .ok _›
    intro hnf
    obtain ⟨d, name, hs, hd⟩ := insert_eq_error hins hnf
    rw [node?_detach, if_neg (not_within_of_split? hs),
      node?_unlink_parent hs (node?_above_of_liveFolder hs hcs)] at hd
    cases hd
  case vc2 =>
    have hins := ‹Store.insert _ t _ = .error _›
    have hcs := ‹Store.liveFolder _ (holder t) parent = .ok _›
    intro hnf
    rw [insert_error_isNotFound hins hcs] at hnf
    cases hnf
  case vc3 =>
    have hf := ‹Store.liveFolder _ (holder t) parent = .error _›
    exact blames_of_liveFolder hf (by simp)
  case vc4 =>
    intro hnf
    cases hnf
  case vc5 =>
    have hl := ‹Store.live _ sp src = .error _›
    exact blames_of_live hl (by simp)

/-- A checked move blames the source it was handed and the target's folder, when its source
check passes only on a path that is there and fails for absence only where the source is gone. -/
theorem checkedRelocate_blames {α : Type} (tally : Calls → Calls) (source : Store → Except Error α)
    (src parent : Entry) (sp t : Path) (hsrc : ∀ s a, source s = .ok a → (s.node? sp).isSome)
    (hgone : ∀ s err, source s = .error err → err.isNotFound = true → ¬ s.Holds sp src) :
    Blames (checkedRelocate tally source parent sp t) [(sp, src), (holder t, parent)] := by
  intro s0
  unfold checkedRelocate count check apply
  mvcgen
  all_goals subst_vars
  · have ha := ‹source _ = .ok _›
    have hr := ‹Store.relocate _ sp t = .error _›
    intro hnf
    rw [relocate_error_isNotFound hr (Option.isSome_iff_ne_none.1 (hsrc _ _ ha))
      ‹Store.liveFolder _ (holder t) parent = .ok _›] at hnf
    cases hnf
  · have hf := ‹Store.liveFolder _ (holder t) parent = .error _›
    exact blames_of_liveFolder hf (by simp)
  · have hf := ‹source _ = .error _›
    intro hnf
    have hg := hgone _ _ hf hnf
    exact ⟨(sp, src), by simp, hg⟩

theorem rename_blames (src parent : Entry) (sp t : Path) :
    Blames (rename src parent sp t) [(sp, src), (holder t, parent)] := by
  rw [rename_eq]
  exact checkedRelocate_blames _ _ src parent sp t (fun _ _ hn => by simp [(live_eq_ok.1 hn).1])
    fun _ _ hl _ => (live_eq_error hl).2

theorem moveEntry_blames (src parent : Entry) (sp t : Path) :
    Blames (moveEntry src parent sp t) [(sp, src), (holder t, parent)] := by
  rw [moveEntry_eq]
  exact checkedRelocate_blames _ _ src parent sp t (fun _ _ hn => by simp [(live_eq_ok.1 hn).1])
    fun _ _ hl _ => (live_eq_error hl).2

theorem moveFolder_blames (src parent : Entry) (sp t : Path) :
    Blames (moveFolder src parent sp t) [(sp, src), (holder t, parent)] := by
  rw [moveFolder_eq]
  exact checkedRelocate_blames _ _ src parent sp t
    (fun _ _ hcs => by simp [liveFolder_eq_ok.1 hcs]) fun _ _ hf hnf => liveFolder_eq_error hf hnf

end Store

namespace Volume

/-- Run from `v` behind an eviction of the paths it was handed, a store call either leaves the
entry cache as it was, or forgets exactly those paths, and then the store no longer holds one
of the entries it was handed. -/
def EvictsOnStale {α : Type} (v : Volume) (handed : List (Path × Entry)) (x : StoreM α) : Prop :=
  (((evictOnNotFound (handed.map Prod.fst) (onStore x)).run).run v).2.entries = v.entries ∨
    ((∃ pe ∈ handed, ¬ v.store.Holds pe.1 pe.2) ∧
      (((evictOnNotFound (handed.map Prod.fst) (onStore x)).run).run v).2.entries =
        (handed.map Prod.fst).foldl EntryCache.remove v.entries)

theorem evictsOnStale_of_blames {α : Type} {x : StoreM α} {handed : List (Path × Entry)}
    (hx : Store.Blames x handed) (v : Volume) : EvictsOnStale v handed x := by
  have hrun := (triple_iff_run _ _ _ _).1
    (evictOnNotFound_run_spec (handed.map Prod.fst) x v) v rfl
  unfold EvictsOnStale
  revert hrun
  rcases ((evictOnNotFound (handed.map Prod.fst) (onStore x)).run).run v with ⟨_ | a, w⟩
  · rename_i e
    rintro ⟨s, hs, -, hw⟩
    by_cases hnf : e.isNotFound = true
    · exact .inr ⟨error_of_triple (hx v.store) hs hnf, by rw [hw, if_pos hnf]⟩
    · exact .inl (by rw [hw, if_neg hnf])
  · rintro ⟨s, -, rfl⟩
    exact .inl rfl

/-- Each store call behind an eviction forgets only the paths it was handed, and only when the
store no longer holds one of their entries; a copy, rename or move is handed the source and the
folder that takes the target. -/
theorem evictions_follow_stale_entries (v : Volume) :
    (∀ parent d name, EvictsOnStale v [(d, parent)] (Store.lookupChild parent d name)) ∧
    (∀ e d, EvictsOnStale v [(d, e)] (Store.listChildren e d)) ∧
    (∀ parent p, EvictsOnStale v [(Store.holder p, parent)] (Store.createFolder parent p)) ∧
    (∀ e p, EvictsOnStale v [(p, e)] (Store.hasChildren e p)) ∧
    (∀ e p, EvictsOnStale v [(p, e)] (Store.remove e p)) ∧
    (∀ e p, EvictsOnStale v [(p, e)] (Store.download e p)) ∧
    (∀ parent p replace append,
      EvictsOnStale v [(Store.holder p, parent)] (Store.upload parent p replace append)) ∧
    (∀ se parent sp t replace, EvictsOnStale v [(sp, se), (Store.holder t, parent)]
      (Store.copy se parent sp t replace)) ∧
    (∀ se parent sp t, EvictsOnStale v [(sp, se), (Store.holder t, parent)]
      (Store.rename se parent sp t)) ∧
    (∀ se parent sp t, EvictsOnStale v [(sp, se), (Store.holder t, parent)]
      (Store.moveEntry se parent sp t)) ∧
    ∀ se parent sp t, EvictsOnStale v [(sp, se), (Store.holder t, parent)]
      (Store.moveFolder se parent sp t) :=
  ⟨fun parent d name => evictsOnStale_of_blames (Store.lookupChild_blames parent d name) v,
    fun e d => evictsOnStale_of_blames (Store.listChildren_blames e d) v,
    fun parent p => evictsOnStale_of_blames (Store.createFolder_blames parent p) v,
    fun e p => evictsOnStale_of_blames (Store.hasChildren_blames e p) v,
    fun e p => evictsOnStale_of_blames (Store.remove_blames e p) v,
    fun e p => evictsOnStale_of_blames (Store.download_blames e p) v,
    fun parent p replace append =>
      evictsOnStale_of_blames (Store.upload_blames parent p replace append) v,
    fun se parent sp t replace =>
      evictsOnStale_of_blames (Store.copy_blames se parent sp t replace) v,
    fun se parent sp t => evictsOnStale_of_blames (Store.rename_blames se parent sp t) v,
    fun se parent sp t => evictsOnStale_of_blames (Store.moveEntry_blames se parent sp t) v,
    fun se parent sp t => evictsOnStale_of_blames (Store.moveFolder_blames se parent sp t) v⟩

/-- An eviction written with `cond`, which evaluates without deciding a proposition. -/
theorem evictOnNotFound_eq_cond {α : Type} (paths : List Path) (x : VolM α) :
    evictOnNotFound paths x = tryCatch x fun e =>
      cond e.isNotFound (do for p in paths do modifyEntries (·.remove p)
                            throw e) (throw e) := by
  unfold evictOnNotFound
  congr
  funext e
  cases e.isNotFound
  · rfl
  · rfl

end Volume

namespace Mount

/-- A copy from a source that another writer removed fails for absence, and forgets the folder
it was to copy into though the store still holds it: the entry cache drops the folder and the
root's cached listing no longer names it. -/
theorem failed_copy_forgets_live_folder :
    let before := (Mount.create {}).replay [.request (.createDir (Path.root.join "t")),
      .openWrite (Path.root.join "s") false false, .commit 0,
      .external fun s => s.externalRemove (Path.root.join "s")]
    let copy := Volume.copy (Path.root.join "s") ((Path.root.join "t").join "c") false
    (before.volume.entries.entries.get? (Path.root.join "t")).map Entry.id = some 1 ∧
      (before.volume.store.node? (Path.root.join "t")).map Node.id = some 1 ∧
      before.volume.entries.listingContains Path.root (Path.root.join "t") = true ∧
      (before.run copy).1 = .error (.notFound (Path.root.join "s")) ∧
      ((before.run copy).2.volume.store.node? (Path.root.join "t")).map Node.id = some 1 ∧
      (before.run copy).2.volume.entries.entries.get? (Path.root.join "t") = none ∧
      (before.run copy).2.volume.entries.listingContains Path.root (Path.root.join "t") =
        false := by
  intro before copy
  simp only [copy, Volume.copy, Volume.evictOnNotFound_eq_cond]
  refine ⟨?_, ?_, ?_, ?_, ?_, ?_, ?_⟩
  · cbv
  · cbv
  · cbv
  · cbv
  · cbv
  · cbv
  · cbv

end Mount

end FrontCache
