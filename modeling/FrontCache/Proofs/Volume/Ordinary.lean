import FrontCache.Proofs.Store.MoveTable
import FrontCache.Proofs.Volume.Frame
/-!
# Lookups in an ordinary volume

An ordinary volume is coherent, hides no names and takes changes. In such a volume a lookup
tells the truth about the store: `resolve` finds the store's entry, or fails for absence exactly
when the store has no node there (`resolve_bare`). The failures of a lookup are all of the kind
"not found", which takes an induction on the depth of the path through `resolve` and `list`
(`resolve_list_fail`). The folder that is to hold a path is the store's folder above it, or a
failure that names why there is none (`Store.Unheld`).
-/
namespace FrontCache

open Std.Do

set_option mvcgen.warning false

theorem Store.rootEntry_fails (s0 : Store) :
    ⦃fun s => ⌜s = s0⌝⦄ Store.rootEntry
    ⦃post⟨fun _ _ => ⌜True⌝, fun err _ => ⌜err = .notFound Path.root⌝⟩⦄ := by
  unfold Store.rootEntry Store.count
  mvcgen

namespace Volume

theorem screened_fails {p : Path} {k : VolM Entry} (v0 : Volume)
    (hk : ⦃fun v => ⌜Quiet v0 v ∧ (v0.Coherent → v.Coherent)⌝⦄ k
      ⦃post⟨fun _ _ => ⌜True⌝, fun err _ => ⌜v0.Coherent → ∃ q, err = .notFound q⌝⟩⦄) :
    ⦃fun v => ⌜v = v0⌝⦄ screened p k
    ⦃post⟨fun _ _ => ⌜True⌝, fun err _ => ⌜v0.Coherent → ∃ q, err = .notFound q⌝⟩⦄ := by
  rw [screened]
  mvcgen [cached_spec, hk]
  all_goals subst_vars
  case vc1 => exact fun _ => ⟨p, rfl⟩
  case vc2 =>
    obtain ⟨-, rfl⟩ := ‹_ = Table.get? _ p ∧ _›
    exact ⟨(Quiet.refl _).entries _, fun hc => hc.get p⟩

theorem lookRoot_fails (v0 : Volume) :
    ⦃fun v => ⌜Quiet v0 v ∧ (v0.Coherent → v.Coherent)⌝⦄ lookRoot
    ⦃post⟨fun _ _ => ⌜True⌝, fun err _ => ⌜v0.Coherent → ∃ q, err = .notFound q⌝⟩⦄ := by
  rw [lookRoot]
  mvcgen [onStore_spec, modifyEntries]
  rintro ⟨s, hrun, -⟩ -
  have h := error_of_triple (Store.rootEntry_fails _) hrun
  exact ⟨_, h⟩

theorem healMiss_fails {p d : Path}
    (hl : ∀ b v1, ⦃fun v => ⌜v = v1⌝⦄ list d b
      ⦃post⟨fun _ _ => ⌜True⌝, fun err _ => ⌜v1.Coherent → (∃ q, err = .notFound q) ∨
        err = .notADirectory d ∧ ∃ i data, v1.store.node? d = some ⟨i, .file data⟩⌝⟩⦄)
    (v0 : Volume) :
    ⦃fun v => ⌜Quiet v0 v ∧ (v0.Coherent → v.Coherent ∧
        ∃ r, v.store.entryAt d = some r ∧ r.isFolder = true)⌝⦄ healMiss d p
    ⦃post⟨fun _ _ => ⌜True⌝, fun err _ => ⌜v0.Coherent → ∃ q, err = .notFound q⌝⟩⦄ := by
  rw [healMiss]
  mvcgen [hl, cached_spec, modifyEntries, -list_spec]
  case vc1 | vc3 => exact fun _ => ⟨p, rfl⟩
  case vc2 =>
    -- the listing failed: not for a file at `d`, which is a folder
    obtain ⟨hq, hc⟩ := ‹Quiet v0 _ ∧ _›
    intro hl hc0
    obtain ⟨hc1, r, hr, hf⟩ := hc hc0
    rcases hl (hc1.remove p) with h | ⟨-, i, data, hd⟩
    · exact h
    · obtain ⟨cs, hcs⟩ := Store.folder_of_entryAt hr hf
      have h2 := hcs.symm.trans hd
      cases h2

theorem lookBelow_fails {p d : Path} {name : String} (hs : p.split? = some (d, name))
    (hr : ∀ v1, ⦃fun v => ⌜v = v1⌝⦄ resolve d
      ⦃post⟨fun _ _ => ⌜True⌝, fun err _ => ⌜v1.Coherent → ∃ q, err = .notFound q⌝⟩⦄)
    (hl : ∀ b v1, ⦃fun v => ⌜v = v1⌝⦄ list d b
      ⦃post⟨fun _ _ => ⌜True⌝, fun err _ => ⌜v1.Coherent → (∃ q, err = .notFound q) ∨
        err = .notADirectory d ∧ ∃ i data, v1.store.node? d = some ⟨i, .file data⟩⌝⟩⦄)
    (v0 : Volume) :
    ⦃fun v => ⌜Quiet v0 v ∧ (v0.Coherent → v.Coherent)⌝⦄ lookBelow p d name
    ⦃post⟨fun _ _ => ⌜True⌝, fun err _ => ⌜v0.Coherent → ∃ q, err = .notFound q⌝⟩⦄ := by
  have hr' := fun v1 => triple_both (resolve_spec d v1) (hr v1)
  have hheal := healMiss_fails (p := p) hl v0
  rw [lookBelow]
  mvcgen [hr', hheal, onStore_spec, evictOnNotFound_spec, modifyEntries, -resolve_spec]
  all_goals subst_vars
  all_goals obtain ⟨hq, hc⟩ := ‹Quiet v0 _ ∧ _›
  case vc1 => exact fun _ => ⟨p, rfl⟩
  case vc2 =>
    obtain ⟨hq2, hc2⟩ := ‹Quiet _ _ ∧ (_ → _ ∧ _ = some _ ∧ _)›
    obtain ⟨s3, hrun, rfl⟩ := ‹∃ s, StateT.run _ _ = _ ∧ _›
    obtain ⟨hk, -⟩ := ok_of_triple (Store.lookupChild_spec _ _ _ _) hrun
    refine ⟨(hq.trans hq2).bump hk, fun hc0 => ?_⟩
    obtain ⟨hc3, hr, -⟩ := hc2 (hc hc0)
    exact ⟨hc3.bump hk, _, (((Quiet.refl _).bump hk).entryAt d).trans ((hq2.entryAt d).trans hr),
      by simpa using ‹¬ (!_) = true›⟩
  case vc3 =>
    -- a lookup under a fresh folder entry does not fail
    obtain ⟨hq2, hc2⟩ := ‹Quiet _ _ ∧ (_ → _ ∧ _ = some _ ∧ _)›
    rintro ⟨s3, l, hrun, -⟩ hc0
    obtain ⟨hc3, hr, -⟩ := hc2 (hc hc0)
    obtain ⟨k, hrun'⟩ := lookupChild_run hc3 ((hq2.entryAt d).trans hr)
      (by simpa using ‹¬ (!_) = true›) hs
    rw [hrun'] at hrun
    injection hrun with h1
    injection h1
  case vc4 => exact fun _ _ h hc0 => h (hc hc0)

theorem resolve_fail_step (n : Nat)
    (ihr : ∀ d, d.count < n → ∀ v0, ⦃fun v => ⌜v = v0⌝⦄ resolve d
      ⦃post⟨fun _ _ => ⌜True⌝, fun err _ => ⌜v0.Coherent → ∃ q, err = .notFound q⌝⟩⦄)
    (ihl : ∀ d, d.count < n → ∀ b v0, ⦃fun v => ⌜v = v0⌝⦄ list d b
      ⦃post⟨fun _ _ => ⌜True⌝, fun err _ => ⌜v0.Coherent → (∃ q, err = .notFound q) ∨
        err = .notADirectory d ∧ ∃ i data, v0.store.node? d = some ⟨i, .file data⟩⌝⟩⦄)
    (p : Path) (hp : p.count = n) (v0 : Volume) :
    ⦃fun v => ⌜v = v0⌝⦄ resolve p
      ⦃post⟨fun _ _ => ⌜True⌝, fun err _ => ⌜v0.Coherent → ∃ q, err = .notFound q⌝⟩⦄ := by
  cases hs : p.split? with
  | none =>
    rw [resolve_root hs]
    exact screened_fails v0 (lookRoot_fails v0)
  | some dn =>
    obtain ⟨d, name⟩ := dn
    have hd : d.count < n := hp ▸ Path.count_lt_of_split? hs
    rw [resolve_below hs]
    exact screened_fails v0 (lookBelow_fails hs (ihr d hd) (ihl d hd) v0)

/-- Over a coherent volume, listing a folder whose entry a lookup found does not fail. -/
theorem listChildren_resolved {v v2 : Volume} {dir : Path} {r : Entry} (hf : r.isFolder = true)
    (hih : Quiet v v2 ∧ (v.Coherent → v2.Coherent ∧ v.store.entryAt dir = some r ∧
      Shown v.options dir))
    (hc : v.Coherent) {e : Error} {s : Store} :
    ((Store.listChildren r dir).run).run v2.store ≠ (.error e, s) := by
  obtain ⟨cs, k, -, hrun⟩ := listChildren_run ((hih.1.entryAt dir).trans (hih.2 hc).2.1) hf
  rw [hrun]
  intro h
  injection h with h1
  cases h1

theorem fetchListing_fails (dir : Path) (v0 : Volume) (r : Entry) :
    ⦃fun v => ⌜r.isFolder = true ∧ Quiet v0 v ∧ (v0.Coherent → v.Coherent ∧
        v0.store.entryAt dir = some r ∧ Shown v0.options dir)⌝⦄ fetchListing dir r
    ⦃post⟨fun _ _ => ⌜True⌝, fun err _ => ⌜v0.Coherent → (∃ q, err = .notFound q) ∨
      err = .notADirectory dir ∧ ∃ i data, v0.store.node? dir = some ⟨i, .file data⟩⌝⟩⦄ := by
  rw [fetchListing]
  mvcgen [onStore_spec, evictOnNotFound_spec, modifyEntries]
  obtain ⟨hf, hih⟩ := ‹_ = true ∧ Quiet v0 _ ∧ _›
  rintro ⟨s, l, hrun, -⟩ hc
  exact absurd hrun (listChildren_resolved hf hih hc)

theorem list_fail_step (dir : Path) (b : Bool)
    (hr : ∀ v0, ⦃fun v => ⌜v = v0⌝⦄ resolve dir
      ⦃post⟨fun _ _ => ⌜True⌝, fun err _ => ⌜v0.Coherent → ∃ q, err = .notFound q⌝⟩⦄)
    (v0 : Volume) :
    ⦃fun v => ⌜v = v0⌝⦄ list dir b
      ⦃post⟨fun _ _ => ⌜True⌝, fun err _ => ⌜v0.Coherent → (∃ q, err = .notFound q) ∨
        err = .notADirectory dir ∧ ∃ i data, v0.store.node? dir = some ⟨i, .file data⟩⌝⟩⦄ := by
  have hr' := fun v0 => triple_both (resolve_spec dir v0) (hr v0)
  have hfetch := fetchListing_fails dir v0
  rw [list_eq]
  mvcgen [hr', hfetch, -resolve_spec]
  all_goals subst_vars
  case vc1 =>
    -- not a folder: the store holds a file there
    obtain ⟨-, hc⟩ := ‹Quiet _ _ ∧ _›
    intro hc0
    obtain ⟨data, hd, -⟩ := Store.file_of_entryAt (hc hc0).2.1 (by simpa using ‹(!_) = true›)
    exact Or.inr ⟨trivial, _, data, hd⟩
  case vc2 | vc3 => exact ⟨by simpa using ‹¬ (!_) = true›, ‹_›⟩
  case vc4 => exact fun _ _ h hc0 => Or.inl (h hc0)

theorem resolve_list_fail (n : Nat) :
    (∀ p v0, p.count = n → ⦃fun v => ⌜v = v0⌝⦄ resolve p
      ⦃post⟨fun _ _ => ⌜True⌝, fun err _ => ⌜v0.Coherent → ∃ q, err = .notFound q⌝⟩⦄) ∧
    (∀ d b v0, d.count = n → ⦃fun v => ⌜v = v0⌝⦄ list d b
      ⦃post⟨fun _ _ => ⌜True⌝, fun err _ => ⌜v0.Coherent → (∃ q, err = .notFound q) ∨
        err = .notADirectory d ∧ ∃ i data, v0.store.node? d = some ⟨i, .file data⟩⌝⟩⦄) := by
  induction n using Nat.strong_induction_on with
  | _ n ih =>
    have hr : ∀ (p : Path) (v0 : Volume), p.count = n → _ := fun p v0 hp =>
      resolve_fail_step n (fun d hd v0 => (ih d.count hd).1 d v0 rfl)
        (fun d hd b v0 => (ih d.count hd).2 d b v0 rfl) p hp v0
    exact ⟨hr, fun d b v0 hd => list_fail_step d b (fun v0 => hr d v0 hd) v0⟩

theorem resolve_fails_absent (p : Path) (v0 : Volume) :
    ⦃fun v => ⌜v = v0⌝⦄ resolve p
      ⦃post⟨fun _ _ => ⌜True⌝, fun err _ => ⌜v0.Coherent → ∃ q, err = .notFound q⌝⟩⦄ :=
  (resolve_list_fail p.count).1 p v0 rfl

theorem shown_of_bare {o : Options} (h : o.ignoreSidecars = false) (p : Path) : Shown o p :=
  fun hig => absurd hig (by simp [h])

theorem visible_iff {v : Volume} (h : v.options.ignoreSidecars = false) (p : Path) :
    v.Visible p ↔ (v.store.node? p).isSome :=
  ⟨And.right, fun hp => ⟨shown_of_bare h p, hp⟩⟩

/-- A coherent volume that shows every name and takes changes. -/
structure Ordinary (v : Volume) : Prop where
  coherent : v.Coherent
  shows : v.options.ignoreSidecars = false
  writable : v.options.readOnly = false

theorem Ordinary.quiet {w v : Volume} (ho : w.Ordinary) (hq : Quiet w v) (hc : v.Coherent) :
    v.Ordinary :=
  ⟨hc, by rw [hq.options]; exact ho.shows, by rw [hq.options]; exact ho.writable⟩

/-- Looking a path up in an ordinary volume: the store's entry when it holds a node there, and
a failure for absence when it does not. -/
theorem resolve_bare (p : Path) (v0 : Volume) :
    ⦃fun v => ⌜v = v0 ∧ v0.Ordinary⌝⦄ resolve p
    ⦃post⟨fun e v => ⌜Quiet v0 v ∧ v.Ordinary ∧ v0.store.entryAt p = some e⌝,
      fun err v => ⌜Quiet v0 v ∧ v.Ordinary ∧ v0.store.node? p = none ∧ ∃ q, err = .notFound q⌝⟩⦄ := by
  refine triple_guard fun ho => ?_
  refine (triple_iff_run _ _ _ _).2 fun v hv => ?_
  subst hv
  have h := (triple_iff_run _ _ _ _).1 (triple_both (resolve_spec p v) (resolve_fails_absent p v)) v rfl
  revert h
  rcases ((resolve p).run).run v with ⟨_ | e, w⟩
  · rintro ⟨⟨hq, hco⟩, hnf⟩
    obtain ⟨hcw, hnv⟩ := hco ho.coherent
    exact ⟨hq, ho.quiet hq hcw, by simpa [visible_iff ho.shows] using hnv, hnf ho.coherent⟩
  · rintro ⟨⟨hq, hco⟩, -⟩
    obtain ⟨hcw, he, -⟩ := hco ho.coherent
    exact ⟨hq, ho.quiet hq hcw, he⟩

/-- Looking up a path where absence is an answer, in an ordinary volume: never a failure, and
the store's entry or nothing. -/
theorem resolveExisting_bare (p : Path) (v0 : Volume) :
    ⦃fun v => ⌜v = v0 ∧ v0.Ordinary⌝⦄ resolveExisting p
    ⦃post⟨fun r v => ⌜Quiet v0 v ∧ v.Ordinary ∧ r = v0.store.entryAt p⌝, fun _ _ => ⌜False⌝⟩⦄ := by
  refine triple_guard fun ho => ?_
  unfold resolveExisting
  mvcgen [resolve_bare, -resolve_spec]
  all_goals subst_vars
  case vc1 => exact ⟨trivial, ho⟩
  case vc2 =>
    rename_i h
    exact ⟨h.1, h.2.1, h.2.2.symm⟩
  case vc3 =>
    rintro w hq hcw hnone ⟨q, rfl⟩
    simp only [Error.isNotFound, if_true, WP.pure]
    exact ⟨hq, hcw, by simp [Store.entryAt, hnone]⟩

/-- The folder that will hold a path, in an ordinary volume: the store's folder above the path,
or a failure saying why there is none. -/
theorem resolveParentFolder_bare (p : Path) (v0 : Volume) :
    ⦃fun v => ⌜v = v0 ∧ v0.Ordinary⌝⦄ resolveParentFolder p
    ⦃post⟨fun r v => ⌜Quiet v0 v ∧ v.Ordinary ∧ p.parent? = some r.1 ∧
        v0.store.entryAt r.1 = some r.2 ∧ r.2.isFolder = true⌝,
      fun err v => ⌜Quiet v0 v ∧ v.Ordinary ∧ Store.Unheld v0.store p err⌝⟩⦄ := by
  refine triple_guard fun ho => ?_
  unfold resolveParentFolder
  mvcgen [resolve_bare, -resolve_spec]
  all_goals subst_vars
  case vc1 =>
    exact ⟨Quiet.refl _, ho, .root ‹p.parent? = none›⟩
  case vc2 => exact ⟨trivial, ho⟩
  case vc3 =>
    -- the parent resolved to a file, which an ordinary volume has in its store
    have hp := ‹p.parent? = some _›
    have hnf := ‹(! _) = true›
    obtain ⟨hq, hov, he⟩ := ‹Quiet _ _ ∧ Volume.Ordinary _ ∧ _›
    obtain ⟨data, hd, -⟩ := Store.file_of_entryAt he (by simpa using hnf)
    exact ⟨hq, hov, .file hp hd⟩
  case vc4 =>
    have hnf := ‹¬ (! _) = true›
    obtain ⟨hq, hov, he⟩ := ‹Quiet _ _ ∧ Volume.Ordinary _ ∧ _›
    exact ⟨hq, hov, ‹p.parent? = some _›, he, by simpa using hnf⟩
  case vc5 =>
    have hp := ‹p.parent? = some _›
    rintro hq hcw hnone ⟨q, rfl⟩
    exact ⟨hq, hcw, .missing hp hnone⟩

end Volume

end FrontCache
