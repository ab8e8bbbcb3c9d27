import Mathlib.Data.List.Basic
import FrontCache.Proofs.Volume.Resolve
import FrontCache.Volume.Change
/-!
# Sidecar names

With `ignoreSidecars` set, a path whose last component is a sidecar name (`._x`, `.DS_Store`,
`.localized`, `.hidden`) is absent to lookups: `resolve` refuses it before it consults the
entry cache or the store (`resolve_sidecar_run`), and a fresh listing leaves such children out
(`list_fresh_answer`). The changes that make a path take absence as leave to make it: `createDir`
of a sidecar path finds it absent, has the store make the folder, and caches it
(`sidecar_folder_reaches_store`). What runs keep when no change is asked to make a sidecar path
is in `FrontCache.Proofs.Mount.HiddenSidecars`.
-/
namespace FrontCache

namespace Volume

open Std.Do

set_option mvcgen.warning false

/-- The screen refuses a path the options hide before it looks at anything. -/
theorem screened_hidden {p : Path} (k : VolM Entry) (v0 : Volume)
    (hs : (v0.options.ignoreSidecars && p.isSidecar) = true) :
    ⦃fun v => ⌜v = v0⌝⦄ screened p k
    ⦃post⟨fun _ _ => ⌜False⌝, fun e v => ⌜e = .notFound p ∧ v = v0⌝⟩⦄ := by
  have hk : ⦃fun _ => ⌜False⌝⦄ k
      ⦃post⟨fun _ _ => ⌜False⌝, fun e v => ⌜e = .notFound p ∧ v = v0⌝⟩⦄ :=
    Triple.iff.2 fun _ h => h.elim
  rw [screened]
  mvcgen [hk]
  all_goals
    subst_vars
    exact absurd hs ‹_›

/-- `resolve` refuses a sidecar path first: it fails with `notFound` and changes nothing. -/
theorem resolve_sidecar_spec (p : Path) (v0 : Volume)
    (hs : (v0.options.ignoreSidecars && p.isSidecar) = true) :
    ⦃fun v => ⌜v = v0⌝⦄ resolve p
    ⦃post⟨fun _ _ => ⌜False⌝, fun e v => ⌜e = .notFound p ∧ v = v0⌝⟩⦄ := by
  obtain ⟨k, hk⟩ := resolve_screened p
  rw [hk]
  exact screened_hidden k v0 hs

/-- With sidecars ignored, a fresh listing keeps no sidecar path. -/
theorem keptChildren_not_sidecar (dir : Path) (children : List Entry) :
    ∀ pe ∈ keptChildren true dir children, pe.1.isSidecar = false := by
  unfold keptChildren
  dsimp only
  refine List.foldlRecOn
    (motive := fun acc : List (Path × Entry) => ∀ pe ∈ acc, pe.1.isSidecar = false) children _
    (by simp) fun acc hacc child _ pe hpe => ?_
  split_ifs at hpe with hc hs ha
  · exact hacc pe hpe
  · exact hacc pe hpe
  · exact hacc pe hpe
  · rcases List.mem_append.1 hpe with h | h
    · exact hacc pe h
    · rw [List.mem_singleton.1 h]
      simpa using hs

/-- The children fetched for a listing: none is a sidecar path when sidecars are ignored. -/
theorem fetchListing_not_sidecar (d : Path) (e : Entry) (v0 : Volume) :
    ⦃fun v => ⌜v.options = v0.options⌝⦄ fetchListing d e
    ⦃post⟨fun l _ => ⌜v0.options.ignoreSidecars = true → ∀ q ∈ l, q.isSidecar = false⌝,
      fun _ _ => ⌜True⌝⟩⦄ := by
  rw [fetchListing]
  mvcgen [evictOnNotFound_spec, modifyEntries]
  obtain ⟨s, -, rfl⟩ := ‹∃ s, StateT.run _ _ = _ ∧ _›
  intro hig q hmem
  obtain ⟨pe, hpe, rfl⟩ := List.mem_map.1 hmem
  exact keptChildren_not_sidecar d _ pe (by simpa +zetaDelta [‹_ = v0.options›, hig] using hpe)

/-- A fresh listing names no sidecar path when sidecars are ignored. -/
theorem list_fresh_spec (d : Path) (v0 : Volume) :
    ⦃fun v => ⌜v = v0⌝⦄ list d false
    ⦃post⟨fun l _ => ⌜v0.options.ignoreSidecars = true → ∀ q ∈ l, q.isSidecar = false⌝,
      fun _ _ => ⌜True⌝⟩⦄ := by
  have hfetch := fetchListing_not_sidecar d
  rw [list_eq]
  mvcgen [hfetch]
  all_goals subst_vars
  exact ‹Quiet _ _ ∧ _›.1.options

/-- With sidecars ignored, resolving a sidecar path fails with `notFound` and leaves the volume
as it was: no store call is made and nothing is cached. -/
theorem resolve_sidecar_run (v : Volume) (hig : v.options.ignoreSidecars = true) {p : Path}
    (hp : p.isSidecar = true) : ((resolve p).run).run v = (.error (.notFound p), v) := by
  have hrun := (triple_iff_run _ _ _ _).1 (resolve_sidecar_spec p v (by simp [hig, hp])) v rfl
  revert hrun
  rcases ((resolve p).run).run v with ⟨_ | _, w⟩
  · rintro ⟨rfl, rfl⟩
    rfl
  · exact False.elim

/-- With sidecars ignored, a fresh listing answers no sidecar path. -/
theorem list_fresh_answer (v : Volume) (hig : v.options.ignoreSidecars = true) {d : Path}
    {l : List Path} (hl : (((list d false).run).run v).1 = .ok l) : ∀ q ∈ l, q.isSidecar = false := by
  have hrun := (triple_iff_run _ _ _ _).1 (list_fresh_spec d v) v rfl
  revert hrun hl
  rcases ((list d false).run).run v with ⟨_ | l', w⟩
  · intro he
    cases he
  · intro hl hrun
    cases hl
    exact hrun hig

/-- Making a folder at a sidecar path is not refused: the lookup answers that the path is
absent, the store makes the folder, and the entry cache takes it. -/
theorem sidecar_folder_reaches_store :
    (((createDir (Path.root.join "._x")).run).run
        (Volume.create { ignoreSidecars := true })).2.store.calls.createFolder = 1 ∧
      (((createDir (Path.root.join "._x")).run).run
        (Volume.create { ignoreSidecars := true })).2.store.contains (Path.root.join "._x") = true ∧
      (((createDir (Path.root.join "._x")).run).run
        (Volume.create { ignoreSidecars := true })).2.entries.hasEntry (Path.root.join "._x") =
        true := by
  refine ⟨?_, ?_, ?_⟩
  · cbv
  · cbv
  · cbv

end Volume

end FrontCache
