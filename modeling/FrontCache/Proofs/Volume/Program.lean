import Mathlib
import FrontCache.Proofs.Store.Calls
import FrontCache.Proofs.Cache.Agreement
/-!
# Volume computations, step by step

Triples for the small computations that every volume operation is made of, each from a
volume `v0` given by name: running a store call (`onStore`), running one so that a failure
for absence forgets the paths that led to it (`evictOnNotFound`), reading the entry cache
(`cached`) and refusing changes on a read-only volume (`checkWritable`).

A store call's postcondition here is its run from `v0.store`; the call's own triple is read
off that run with `ok_of_triple` and `error_of_triple`.
-/
namespace FrontCache

namespace Volume

open Std.Do

set_option mvcgen.warning false

@[spec] theorem onStore_spec {α : Type} (x : StoreM α) (v0 : Volume) :
    ⦃fun v => ⌜v = v0⌝⦄ onStore x
    ⦃post⟨fun a v => ⌜∃ s, (x.run).run v0.store = (.ok a, s) ∧ v = { v0 with store := s }⌝,
      fun e v => ⌜∃ s, (x.run).run v0.store = (.error e, s) ∧ v = { v0 with store := s }⌝⟩⦄ := by
  unfold onStore
  mvcgen
  all_goals
    subst_vars
    exact ⟨_, ‹ExceptT.run x _ = _›, rfl⟩

/-- The handler of `evictOnNotFound`: on absence it forgets the paths, then fails again. -/
theorem forgetThenThrow_spec {α : Type} (paths : List Path) (e : Error) (v0 : Volume) :
    ⦃fun v => ⌜v = v0⌝⦄
    (if e.isNotFound = true then do
        forIn paths PUnit.unit fun p _ => do
          modifyEntries fun c => c.remove p
          pure (ForInStep.yield PUnit.unit)
        throw e
      else throw e : VolM α)
    ⦃post⟨fun _ _ => ⌜False⌝, fun e' v => ⌜e' = e ∧ v = { v0 with
      entries := (if e.isNotFound then paths.foldl EntryCache.remove v0.entries else v0.entries) }⌝⟩⦄ := by
  mvcgen [modifyEntries] invariants
  · ⇓⟨xs, _⟩ v => ⌜v = { v0 with entries := xs.prefix.foldl EntryCache.remove v0.entries }⌝
  case vc1.step =>
    subst_vars
    simp +zetaDelta
  case vc3.isTrue.post.success =>
    subst_vars
    simp [‹e.isNotFound = true›]
  case vc5.isFalse =>
    subst_vars
    simp [‹¬ e.isNotFound = true›]

/-- An eviction around a store call: on success the volume holds the store the call left; on
failure the store it failed in, and the entry cache forgets the paths exactly when the failure
is one of absence. -/
theorem evictOnNotFound_run_spec {α : Type} (paths : List Path) (x : StoreM α) (v0 : Volume) :
    ⦃fun v => ⌜v = v0⌝⦄ evictOnNotFound paths (onStore x)
    ⦃post⟨fun a v => ⌜∃ s, (x.run).run v0.store = (.ok a, s) ∧ v = { v0 with store := s }⌝,
      fun e v => ⌜∃ s, (x.run).run v0.store = (.error e, s) ∧
        v = { v0 with store := s, entries := v.entries } ∧
        v.entries = if e.isNotFound then paths.foldl EntryCache.remove v0.entries else v0.entries⌝⟩⦄ := by
  unfold evictOnNotFound
  mvcgen [onStore_spec]
  · rename_i v hv a v'
    subst hv
    exact id
  · rename_i v hv e jp
    subst hv
    rintro _ ⟨s, hrun, rfl⟩
    simp only [jp]
    refine Triple.entails_wp_of_post (@forgetThenThrow_spec α paths e { v with store := s })
      ⟨fun _ _ h => h.elim, fun e' v2 ⟨he, hv2⟩ => ?_, trivial⟩ _ rfl
    subst he hv2
    exact ⟨s, hrun, rfl, rfl⟩

/-- A store call that forgets paths when it fails for absence: on success the volume holds
the store the call left; on failure also an entry cache that only forgot some paths. -/
theorem evictOnNotFound_spec {α : Type} (paths : List Path) (x : StoreM α) (v0 : Volume) :
    ⦃fun v => ⌜v = v0⌝⦄ evictOnNotFound paths (onStore x)
    ⦃post⟨fun a v => ⌜∃ s, (x.run).run v0.store = (.ok a, s) ∧ v = { v0 with store := s }⌝,
      fun e v => ⌜∃ (s : Store) (l : List Path), (x.run).run v0.store = (.error e, s) ∧
        v = { v0 with store := s, entries := l.foldl EntryCache.remove v0.entries }⌝⟩⦄ := by
  refine (triple_iff_run _ _ _ _).2 fun v hv => ?_
  subst hv
  have h := (triple_iff_run _ _ _ _).1 (evictOnNotFound_run_spec paths x v) v rfl
  revert h
  rcases ((evictOnNotFound paths (onStore x)).run).run v with ⟨_ | a, w⟩
  · rename_i e
    rintro ⟨s, hs, hw, he⟩
    by_cases hnf : e.isNotFound = true
    · exact ⟨s, paths, hs, by rw [hw, he, if_pos hnf]⟩
    · exact ⟨s, [], hs, by rw [hw, he, if_neg hnf]; rfl⟩
  · exact id

@[spec] theorem cached_spec (p : Path) (v0 : Volume) :
    ⦃fun v => ⌜v = v0⌝⦄ cached p
    ⦃post⟨fun r v => ⌜r = v0.entries.entries.get? p ∧ v = { v0 with entries := (v0.entries.get p).2 }⌝,
      fun _ _ => ⌜False⌝⟩⦄ := by
  unfold cached
  mvcgen
  rename_i v hv
  subst hv
  exact ⟨EntryCache.get_fst _ _, rfl⟩

@[spec] theorem checkWritable_spec (p : Path) (v0 : Volume) :
    ⦃fun v => ⌜v = v0⌝⦄ checkWritable p
    ⦃post⟨fun _ v => ⌜v = v0 ∧ v0.options.readOnly = false⌝,
      fun e v => ⌜v = v0 ∧ v0.options.readOnly = true ∧ e = .readOnly p⌝⟩⦄ := by
  unfold checkWritable
  mvcgen
  all_goals
    rename_i v hv hro
    subst hv
    simpa using hro

/-- A triple that needs a side condition, with the condition moved into its precondition. -/
theorem triple_guard {α : Type} {x : VolM α} {v0 : Volume} {P : Prop}
    {Q : PostCond α (.except Error (.arg Volume .pure))}
    (h : P → ⦃fun v => ⌜v = v0⌝⦄ x ⦃Q⦄) : ⦃fun v => ⌜v = v0 ∧ P⌝⦄ x ⦃Q⦄ :=
  Triple.iff.2 fun v hv => Triple.iff.1 (h hv.2) v hv.1

/-- The same for a precondition that is any predicate of the volume. -/
theorem triple_guard_pre {α : Type} {x : VolM α} {R : Volume → Prop} {P : Prop}
    {Q : PostCond α (.except Error (.arg Volume .pure))}
    (h : P → ⦃fun v => ⌜R v⌝⦄ x ⦃Q⦄) : ⦃fun v => ⌜R v ∧ P⌝⦄ x ⦃Q⦄ :=
  Triple.iff.2 fun v hv => Triple.iff.1 (h hv.2) v hv.1

end Volume

end FrontCache
