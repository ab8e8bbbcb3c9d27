import FrontCache.Proofs.Store.Calls
import FrontCache.Proofs.Cache.Agreement
/-!
# What the store's calls answer, counts aside

Every call counts itself before it looks at anything, and a tree operation never reads the
counts: a move from a store with other counts answers the same and leaves the same nodes
(`relocate_calls`). So a volume that has only looked things up since `s0` gets from each call
what `s0` would give.

Beside the triples of each call, the ones here say why a call fails: asking a folder whether
it has children fails only when the folder is not live, removing fails only on a path that is
not live or has something below it, and a move between live paths fails only as the tree
operation refuses it. From a fresh entry, asking and removing therefore succeed
(`hasChildren_run`, `remove_run`).
-/
namespace FrontCache.Store

open Std.Do

set_option mvcgen.warning false

theorem link_calls (s : Store) (k : Calls) (p : Path) :
    ({ s with calls := k }).link p = (s.link p).map fun s' => { s' with calls := k } := by
  unfold link
  split
  · rfl
  · rename_i d name _
    simp only [node?]
    split <;> rfl

theorem detach_calls (s : Store) (k : Calls) (p : Path) :
    ({ s with calls := k }).detach p = ((s.detach p).1, { (s.detach p).2 with calls := k }) := by
  unfold detach unlink
  split
  · simp only [node?]
    split <;> rfl
  · rfl

theorem relocate_calls (s : Store) (k : Calls) (src dst : Path) :
    ({ s with calls := k }).relocate src dst =
      (s.relocate src dst).map fun r => (r.1, { r.2 with calls := k }) := by
  unfold relocate
  by_cases hc : s.nodes.contains dst = true
  · simp only [hc, if_true]
    rfl
  by_cases hb : dst.isBelow src = true
  · simp only [hc, hb, if_true, Bool.false_eq_true, if_false]
    rfl
  simp only [hc, hb, Bool.false_eq_true, if_false, link_calls]
  cases s.link dst with
  | error e => rfl
  | ok s1 =>
    simp only [Except.map, bind, Except.bind, detach_calls]
    rw [foldl_insert_nodes _ (fun p => p.reroot src dst),
      foldl_insert_nodes _ (fun p => p.reroot src dst)]
    simp only [node?]
    split <;> rfl

theorem relocate_counted_error {s : Store} {k : Calls} {src dst : Path} {err : Error}
    (h : ({ s with calls := k }).relocate src dst = .error err) : s.relocate src dst = .error err := by
  rw [relocate_calls] at h
  cases hr : s.relocate src dst with
  | error e => rw [hr] at h; exact h
  | ok r => rw [hr] at h; cases h

theorem hasChildren_fails (dir : Entry) (p : Path) (s0 : Store) :
    ⦃fun s => ⌜s = s0⌝⦄ hasChildren dir p
    ⦃post⟨fun _ _ => ⌜True⌝, fun err _ => ⌜s0.liveFolder p dir = .error err⌝⟩⦄ := by
  unfold hasChildren count check
  mvcgen
  subst_vars
  assumption

theorem remove_fails (e : Entry) (p : Path) (s0 : Store) :
    ⦃fun s => ⌜s = s0⌝⦄ remove e p
    ⦃post⟨fun _ _ => ⌜True⌝, fun _ _ => ⌜(∀ n, s0.live p e ≠ .ok n) ∨ s0.Populated p⌝⟩⦄ := by
  unfold remove count check
  mvcgen
  all_goals subst_vars
  case vc1 =>
    rename_i n hn name cs hb
    obtain ⟨id, b⟩ := n
    simp only at hb
    subst hb
    exact Or.inr ⟨id, name, cs, (live_eq_ok.1 hn).1⟩
  case vc2 =>
    rename_i err hl
    refine Or.inl fun n hn => ?_
    have h := hl.symm.trans hn
    cases h

theorem moveEntry_refused (src parent : Entry) (sp t : Path) (s0 : Store) :
    ⦃fun s => ⌜s = s0⌝⦄ moveEntry src parent sp t
    ⦃post⟨fun _ _ => ⌜True⌝, fun err _ => ⌜∀ n cs, s0.live sp src = .ok n →
        s0.liveFolder (holder t) parent = .ok cs → s0.relocate sp t = .error err⌝⟩⦄ := by
  unfold moveEntry count check apply
  mvcgen
  all_goals subst_vars
  case vc1 =>
    rename_i hr
    exact fun _ _ _ _ => relocate_counted_error hr
  case vc2 =>
    rename_i hl
    intro _ cs _ hcs
    have h := hl.symm.trans hcs
    cases h
  case vc3 =>
    rename_i hl
    intro n _ hn _
    have h := hl.symm.trans hn
    cases h

theorem rename_refused (src parent : Entry) (sp t : Path) (s0 : Store) :
    ⦃fun s => ⌜s = s0⌝⦄ rename src parent sp t
    ⦃post⟨fun _ _ => ⌜True⌝, fun err _ => ⌜∀ n cs, s0.live sp src = .ok n →
        s0.liveFolder (holder t) parent = .ok cs → s0.relocate sp t = .error err⌝⟩⦄ := by
  unfold rename count check apply
  mvcgen
  all_goals subst_vars
  case vc1 =>
    rename_i hr
    exact fun _ _ _ _ => relocate_counted_error hr
  case vc2 =>
    rename_i hl
    intro _ cs _ hcs
    have h := hl.symm.trans hcs
    cases h
  case vc3 =>
    rename_i hl
    intro n _ hn _
    have h := hl.symm.trans hn
    cases h

theorem moveFolder_refused (src parent : Entry) (sp t : Path) (s0 : Store) :
    ⦃fun s => ⌜s = s0⌝⦄ moveFolder src parent sp t
    ⦃post⟨fun _ _ => ⌜True⌝, fun err _ => ⌜∀ cs0 cs, s0.liveFolder sp src = .ok cs0 →
        s0.liveFolder (holder t) parent = .ok cs → s0.relocate sp t = .error err⌝⟩⦄ := by
  unfold moveFolder count check apply
  mvcgen
  all_goals subst_vars
  case vc1 =>
    rename_i hr
    exact fun _ _ _ _ => relocate_counted_error hr
  case vc2 =>
    rename_i hl
    intro _ cs _ hcs
    have h := hl.symm.trans hcs
    cases h
  case vc3 =>
    rename_i hl
    intro cs0 _ hcs0 _
    have h := hl.symm.trans hcs0
    cases h
/-- Asking whether a folder whose entry is fresh has children answers from its names. -/
theorem hasChildren_run {s : Store} {p : Path} {e : Entry} (hd : s.entryAt p = some e)
    (hf : e.isFolder = true) :
    ∃ cs k, s.node? p = some ⟨e.id, .folder cs⟩ ∧
      ((hasChildren e p).run).run s = (.ok !cs.isEmpty, { s with calls := k }) := by
  obtain ⟨cs, hcs⟩ := folder_of_entryAt hd hf
  have hlive : s.liveFolder p e = .ok cs := liveFolder_eq_ok.2 hcs
  obtain ⟨b, s', hrun, ⟨⟨k, rfl⟩, cs', hcs', rfl⟩, -⟩ :=
    exists_ok_of_triple (triple_both (hasChildren_spec e p s) (hasChildren_fails e p s))
      fun _ _ h => by
        rw [hlive] at h
        cases h.2
  rw [hlive] at hcs'
  cases hcs'
  exact ⟨cs, k, hcs, hrun⟩

/-- The node of a fresh entry is live. -/
theorem live_of_entryAt {s : Store} {p : Path} {e : Entry} (hd : s.entryAt p = some e) :
    ∃ n, s.node? p = some n ∧ s.live p e = .ok n := by
  obtain ⟨n, hn, rfl⟩ := Option.map_eq_some_iff.1 hd
  refine ⟨n, hn, live_eq_ok.2 ⟨hn, ?_⟩⟩
  unfold Node.entry
  split <;> rfl

/-- Removing a path with nothing below it, under a fresh entry, takes it out. -/
theorem remove_run {s : Store} {p : Path} {e : Entry} (hd : s.entryAt p = some e)
    (hp : ¬ s.Populated p) :
    ∃ k, ((remove e p).run).run s = (.ok (), ({ s with calls := k }.detach p).2) := by
  obtain ⟨n, -, hlive⟩ := live_of_entryAt hd
  obtain ⟨u, s', hrun, ⟨-, k, rfl⟩, -⟩ :=
    exists_ok_of_triple (triple_both (remove_spec e p s) (remove_fails e p s))
      fun _ _ h => h.2.elim (fun h' => h' n hlive) hp
  exact ⟨k, hrun⟩

theorem holder_of_parent? {p d : Path} (h : p.parent? = some d) : holder p = d := by
  simp [holder, h]

end FrontCache.Store
