import Mathlib
import FrontCache.Store.Ops
import FrontCache.Proofs.Store.Tree
/-!
# What each call of the store does

One triple per call of the store, from a store `s0` given by name: what the call answers
and what store it leaves. Every call first counts itself, so the store it leaves is
`s0` with other call counts, possibly after the call's tree operation: `insert` for a new
folder, `detach` for a removal, `relocate` for a move, `overwrite` or `insert` for a
committed upload. A call that fails leaves only the counts changed.

Triples are read back as statements about runs by `triple_iff_run`.
-/
namespace FrontCache

open Std.Do

set_option mvcgen.warning false

theorem wp_run_iff {σ ε α : Type} (x : ExceptT ε (StateM σ) α) (Q : α → σ → Prop)
    (E : ε → σ → Prop) (s : σ) :
    (wp⟦x⟧ post⟨fun a s => ⌜Q a s⌝, fun e s => ⌜E e s⌝⟩ s).down ↔
      match (x.run).run s with
      | (.ok a, s') => Q a s'
      | (.error e, s') => E e s' := by
  simp only [wp, PredTrans.apply, PredTrans.pushExcept, PredTrans.pushArg, StateT.run]
  generalize ExceptT.run x s = r
  rcases r with ⟨_ | _, s'⟩ <;> rfl

/-- A triple with pure conditions over a state with errors says how every run from a state
meeting the precondition ends. -/
theorem triple_iff_run {σ ε α : Type} (x : ExceptT ε (StateM σ) α) (P : σ → Prop)
    (Q : α → σ → Prop) (E : ε → σ → Prop) :
    ⦃fun s => ⌜P s⌝⦄ x ⦃post⟨fun a s => ⌜Q a s⌝, fun e s => ⌜E e s⌝⟩⦄ ↔
      ∀ s, P s → match (x.run).run s with
        | (.ok a, s') => Q a s'
        | (.error e, s') => E e s' := by
  simp only [Triple.iff, SPred.entails]
  exact forall_congr' fun s => imp_congr_right fun _ => wp_run_iff x Q E s

/-- The end of a run from the start state of a triple, when it succeeds. -/
theorem ok_of_triple {σ ε α : Type} {x : ExceptT ε (StateM σ) α} {Q : α → σ → Prop}
    {E : ε → σ → Prop} {s0 s : σ} {a : α}
    (hx : ⦃fun s => ⌜s = s0⌝⦄ x ⦃post⟨fun a s => ⌜Q a s⌝, fun e s => ⌜E e s⌝⟩⦄)
    (h : (x.run).run s0 = (.ok a, s)) : Q a s := by
  have := (triple_iff_run x _ Q E).1 hx s0 rfl
  rw [h] at this
  exact this

/-- The end of a run from the start state of a triple, when it fails. -/
theorem error_of_triple {σ ε α : Type} {x : ExceptT ε (StateM σ) α} {Q : α → σ → Prop}
    {E : ε → σ → Prop} {s0 s : σ} {e : ε}
    (hx : ⦃fun s => ⌜s = s0⌝⦄ x ⦃post⟨fun a s => ⌜Q a s⌝, fun e s => ⌜E e s⌝⟩⦄)
    (h : (x.run).run s0 = (.error e, s)) : E e s := by
  have := (triple_iff_run x _ Q E).1 hx s0 rfl
  rw [h] at this
  exact this

/-- A run from the start state of a triple whose failure post cannot hold succeeds. -/
theorem exists_ok_of_triple {σ ε α : Type} {x : ExceptT ε (StateM σ) α} {Q : α → σ → Prop}
    {E : ε → σ → Prop} {s0 : σ}
    (hx : ⦃fun s => ⌜s = s0⌝⦄ x ⦃post⟨fun a s => ⌜Q a s⌝, fun e s => ⌜E e s⌝⟩⦄)
    (hE : ∀ e s, ¬ E e s) : ∃ a s, (x.run).run s0 = (.ok a, s) ∧ Q a s := by
  cases h : (x.run).run s0 with
  | mk r s =>
    cases r with
    | ok a => exact ⟨a, s, rfl, ok_of_triple hx h⟩
    | error e => exact absurd (error_of_triple hx h) (hE e s)

/-- Two triples from one start state give their posts together. -/
theorem triple_both {σ ε α : Type} {x : ExceptT ε (StateM σ) α} {s0 : σ}
    {Q₁ Q₂ : α → σ → Prop} {E₁ E₂ : ε → σ → Prop}
    (h₁ : ⦃fun s => ⌜s = s0⌝⦄ x ⦃post⟨fun a s => ⌜Q₁ a s⌝, fun e s => ⌜E₁ e s⌝⟩⦄)
    (h₂ : ⦃fun s => ⌜s = s0⌝⦄ x ⦃post⟨fun a s => ⌜Q₂ a s⌝, fun e s => ⌜E₂ e s⌝⟩⦄) :
    ⦃fun s => ⌜s = s0⌝⦄ x ⦃post⟨fun a s => ⌜Q₁ a s ∧ Q₂ a s⌝, fun e s => ⌜E₁ e s ∧ E₂ e s⌝⟩⦄ := by
  refine (triple_iff_run _ _ _ _).2 fun s hs => ?_
  subst hs
  have r₁ := (triple_iff_run _ _ _ _).1 h₁ s rfl
  have r₂ := (triple_iff_run _ _ _ _).1 h₂ s rfl
  revert r₁ r₂
  rcases (x.run).run s with ⟨_ | _, _⟩ <;> exact And.intro

/-- A triple whose two posts are one condition on the state gives that condition at the end
of every run from a state meeting its precondition. -/
theorem end_of_triple {σ ε α : Type} {x : ExceptT ε (StateM σ) α} {P Q : σ → Prop}
    (h : ⦃fun s => ⌜P s⌝⦄ x ⦃post⟨fun _ s => ⌜Q s⌝, fun _ s => ⌜Q s⌝⟩⦄) {s : σ} (hs : P s) :
    Q ((x.run).run s).2 := by
  have hrun := (triple_iff_run x P (fun _ s => Q s) (fun _ s => Q s)).1 h s hs
  revert hrun
  cases (x.run).run s with
  | mk r t => cases r <;> exact id

namespace Store

theorem live_eq_ok {s : Store} {p : Path} {e : Entry} {n : Node} :
    s.live p e = .ok n ↔ s.node? p = some n ∧ n.id = e.id := by
  unfold live
  cases hm : s.node? p with
  | none => simp
  | some m =>
    by_cases hid : m.id = e.id
    · simp only [hid, if_true, Except.ok.injEq, Option.some.injEq]
      constructor
      · rintro rfl
        exact ⟨rfl, hid⟩
      · rintro ⟨rfl, -⟩
        rfl
    · simp only [hid, if_false, reduceCtorEq, Option.some.injEq, false_iff, not_and]
      rintro rfl
      exact hid

theorem liveFolder_eq_ok {s : Store} {p : Path} {e : Entry} {cs : List String} :
    s.liveFolder p e = .ok cs ↔ s.node? p = some ⟨e.id, .folder cs⟩ := by
  unfold liveFolder
  cases hl : s.live p e with
  | error err =>
    simp only [bind, Except.bind, reduceCtorEq, false_iff]
    intro hp
    have := live_eq_ok.2 ⟨hp, rfl⟩
    rw [hl] at this
    cases this
  | ok n =>
    obtain ⟨hn, hid⟩ := live_eq_ok.1 hl
    obtain ⟨id, b⟩ := n
    cases b with
    | folder cs' =>
      simp only [bind, Except.bind, pure, Except.pure, Except.ok.injEq, hn, Option.some.injEq,
        Node.mk.injEq, Body.folder.injEq]
      simp only at hid
      exact ⟨fun h => ⟨hid, h⟩, fun h => h.2⟩
    | file data =>
      simp only [bind, Except.bind, throw, throwThe, MonadExceptOf.throw, reduceCtorEq, hn,
        Option.some.injEq, Node.mk.injEq, and_false]

/-- What a listing of `d` reports for one of its names: the entry of the node at that name,
under its reported name where one is set. -/
def childEntry (s : Store) (d : Path) (name : String) : Option Entry :=
  let p := d.join name
  (s.node? p).map fun n =>
    let e := n.entry p
    match s.reportedNames.get? p with
    | some r => { e with name := r }
    | none => e

theorem remove_spec (e : Entry) (p : Path) (s0 : Store) :
    ⦃fun s => ⌜s = s0⌝⦄ remove e p
    ⦃post⟨fun _ s => ⌜(∃ n, s0.live p e = .ok n ∧ ¬ s0.Populated p) ∧
        ∃ k, s = ({ s0 with calls := k }.detach p).2⌝,
      fun _ s => ⌜∃ k, s = { s0 with calls := k }⌝⟩⦄ := by
  unfold remove count check
  mvcgen
  · exact ⟨_, by subst_vars; rfl⟩
  · subst_vars
    have hlive := ‹Store.live _ p e = .ok _›
    refine ⟨⟨_, hlive, ?_⟩, _, rfl⟩
    -- a folder with a child is refused by the check before the removal
    rintro ⟨i, name, cs, hp⟩
    cases hp.symm.trans (live_eq_ok.1 hlive).1
    exact ‹∀ head tail, _ = Body.folder (head :: tail) → False› name cs rfl
  · exact ⟨_, by subst_vars; rfl⟩

theorem rootEntry_spec (s0 : Store) :
    ⦃fun s => ⌜s = s0⌝⦄ rootEntry
    ⦃post⟨fun e s => ⌜(∃ k, s = { s0 with calls := k }) ∧
        ∃ n, s0.node? Path.root = some n ∧ e = n.entry Path.root⌝,
      fun _ s => ⌜(∃ k, s = { s0 with calls := k }) ∧ s0.node? Path.root = none⌝⟩⦄ := by
  unfold rootEntry count
  mvcgen
  · rename_i n hn
    exact ⟨⟨_, by subst_vars; rfl⟩, n, by subst_vars; exact hn, rfl⟩
  · rename_i hroot
    exact ⟨⟨_, by subst_vars; rfl⟩, by subst_vars; exact hroot⟩

@[spec] theorem listChildren_spec (dir : Entry) (d : Path) (s0 : Store) :
    ⦃fun s => ⌜s = s0⌝⦄ listChildren dir d
    ⦃post⟨fun l s => ⌜(∃ k, s = { s0 with calls := k }) ∧
        ∃ cs, s0.liveFolder d dir = .ok cs ∧ l = cs.filterMap (s0.childEntry d)⌝,
      fun err s => ⌜(∃ k, s = { s0 with calls := k }) ∧ s0.liveFolder d dir = .error err⌝⟩⦄ := by
  unfold listChildren count check
  mvcgen
  · rename_i cs hcs
    exact ⟨⟨_, by subst_vars; rfl⟩, cs, by subst_vars; exact hcs, by subst_vars; rfl⟩
  · rename_i err herr
    exact ⟨⟨_, by subst_vars; rfl⟩, by subst_vars; exact herr⟩

theorem lookupChild_spec (parent : Entry) (d : Path) (name : String) (s0 : Store) :
    ⦃fun s => ⌜s = s0⌝⦄ lookupChild parent d name
    ⦃post⟨fun r s => ⌜(∃ k, s = { s0 with calls := k }) ∧ ∃ cs, s0.liveFolder d parent = .ok cs ∧
        r = if s0.lookupMisses.contains (d.join name) then none
          else (cs.filterMap (s0.childEntry d)).find? (·.name == name)⌝,
      fun err s => ⌜(∃ k, s = { s0 with calls := k }) ∧ s0.liveFolder d parent = .error err⌝⟩⦄ := by
  unfold lookupChild
  mvcgen
  all_goals subst_vars
  case vc1 | vc2 =>
    -- the listing's post, read at the state it left, which has the same misses
    obtain ⟨⟨k, rfl⟩, cs, hcs, rfl⟩ := ‹(∃ k, _) ∧ ∃ cs, _›
    refine ⟨⟨k, rfl⟩, cs, hcs, ?_⟩
    split_ifs <;> simp_all
  case vc3 =>
    exact fun hk herr => ⟨hk, herr⟩

theorem hasChildren_spec (dir : Entry) (p : Path) (s0 : Store) :
    ⦃fun s => ⌜s = s0⌝⦄ hasChildren dir p
    ⦃post⟨fun b s => ⌜(∃ k, s = { s0 with calls := k }) ∧
        ∃ cs, s0.liveFolder p dir = .ok cs ∧ b = !cs.isEmpty⌝,
      fun _ s => ⌜∃ k, s = { s0 with calls := k }⌝⟩⦄ := by
  unfold hasChildren count check
  mvcgen
  · rename_i cs hcs
    exact ⟨⟨_, by subst_vars; rfl⟩, cs, by subst_vars; exact hcs, rfl⟩
  · exact ⟨_, by subst_vars; rfl⟩

theorem createFolder_spec (parent : Entry) (p : Path) (s0 : Store) :
    ⦃fun s => ⌜s = s0⌝⦄ createFolder parent p
    ⦃post⟨fun e s => ⌜(∃ cs, s0.liveFolder (holder p) parent = .ok cs) ∧
        ∃ k, { s0 with calls := k }.insert p (.folder []) = .ok (e, s)⌝,
      fun _ s => ⌜∃ k, s = { s0 with calls := k }⌝⟩⦄ := by
  unfold createFolder count check apply
  mvcgen
  · rename_i cs hcs e s hi
    exact ⟨⟨cs, by subst_vars; exact hcs⟩, _, by subst_vars; exact hi⟩
  · exact ⟨_, by subst_vars; rfl⟩
  · exact ⟨_, by subst_vars; rfl⟩

theorem holder_of_split? {p d : Path} {name : String} (h : p.split? = some (d, name)) :
    holder p = d := by
  simp [holder, Path.parent?_of_split? h]

/-- `relocate` succeeds on a free target, not below the source, in a folder, when the source
is there. -/
theorem relocate_ok {s : Store} {src dst d : Path} {name : String} {i : Nat} {cs : List String}
    (hfree : s.node? dst = none) (hb : dst.isBelow src = false) (hs : dst.split? = some (d, name))
    (hd : s.node? d = some ⟨i, .folder cs⟩) (hsrc : (s.node? src).isSome) :
    ∃ e s', s.relocate src dst = .ok (e, s') := by
  have hl := link_of_folder hs hd
  have hc : s.nodes.contains dst = false := by simpa [Table.contains, node?] using hfree
  set s1 : Store := { s with nodes := s.nodes.insert d ⟨i, .folder (cs ++ [name])⟩ }
  have hmoved : ((s1.unlink src).node? src).isSome := by
    rw [node?_unlink_isSome, node?_link_isSome hl]
    exact hsrc
  obtain ⟨n, hn⟩ := Option.isSome_iff_exists.1 hmoved
  have hdst := node?_relocated s1 src dst dst
  rw [if_pos (within_refl dst), Path.reroot_self, hn, Option.some_or] at hdst
  unfold relocate
  simp only [hc, hb, hl, Bool.false_eq_true, ↓reduceIte, bind, Except.bind]
  rw [hdst]
  exact ⟨_, _, rfl⟩

/-- A move from a live source into a live folder fails only onto a taken path, onto a path
below the source, or onto the root. -/
theorem relocate_fails {s : Store} {src dst : Path} {err : Error} {parent : Entry}
    {cs : List String} (h : s.relocate src dst = .error err) (hsrc : (s.node? src).isSome)
    (hd : s.liveFolder (holder dst) parent = .ok cs) :
    s.node? dst ≠ none ∨ dst.isBelow src = true ∨ dst.split? = none := by
  by_contra hne
  simp only [not_or, not_not, Bool.not_eq_true] at hne
  obtain ⟨hfree, hb, hs⟩ := hne
  obtain ⟨⟨d, name⟩, hsplit⟩ := Option.ne_none_iff_exists'.1 hs
  have hfd := liveFolder_eq_ok.1 hd
  rw [holder_of_split? hsplit] at hfd
  obtain ⟨e, s', hok⟩ := relocate_ok hfree hb hsplit hfd hsrc
  rw [hok] at h
  cases h

/-- A new node in a live folder fails only onto a taken path or onto the root. -/
theorem insert_fails {s : Store} {p : Path} {b : Body} {err : Error} {parent : Entry}
    {cs : List String} (h : s.insert p b = .error err)
    (hd : s.liveFolder (holder p) parent = .ok cs) : s.node? p ≠ none ∨ p.split? = none := by
  by_contra hne
  simp only [not_or, not_not] at hne
  obtain ⟨hfree, hs⟩ := hne
  obtain ⟨⟨d, name⟩, hsplit⟩ := Option.ne_none_iff_exists'.1 hs
  have hfd := liveFolder_eq_ok.1 hd
  rw [holder_of_split? hsplit] at hfd
  rw [insert_of_free b hfree (link_of_folder hsplit hfd)] at h
  cases h

/-- The shape the three store moves share: count the call, check the source, check the folder
above the target, and move. -/
def checkedRelocate {α : Type} (tally : Calls → Calls) (source : Store → Except Error α)
    (parent : Entry) (sp t : Path) : StoreM Entry := do
  count tally
  let _ ← check (source (← get))
  let _ ← check ((← get).liveFolder (holder t) parent)
  apply fun s => s.relocate sp t

theorem rename_eq (src parent : Entry) (sp t : Path) :
    rename src parent sp t =
      checkedRelocate (fun c => { c with rename := c.rename + 1 }) (·.live sp src) parent sp t :=
  rfl

theorem moveEntry_eq (src parent : Entry) (sp t : Path) :
    moveEntry src parent sp t =
      checkedRelocate (fun c => { c with moveEntry := c.moveEntry + 1 }) (·.live sp src) parent
        sp t :=
  rfl

theorem moveFolder_eq (src parent : Entry) (sp t : Path) :
    moveFolder src parent sp t =
      checkedRelocate (fun c => { c with moveFolder := c.moveFolder + 1 }) (·.liveFolder sp src)
        parent sp t :=
  rfl

/-- A checked move from `s0`, for a source check that reads no counter and passes only on a
path that is there: the store's move after both checks, or a failure that changed nothing but
the counters and, past the checks, blames the target. -/
theorem checkedRelocate_spec {α : Type} (tally : Calls → Calls) (source : Store → Except Error α)
    (parent : Entry) (sp t : Path) (s0 : Store)
    (hcalls : ∀ k, source { s0 with calls := k } = source s0)
    (hsrc : ∀ a, source s0 = .ok a → (s0.node? sp).isSome) :
    ⦃fun s => ⌜s = s0⌝⦄ checkedRelocate tally source parent sp t
    ⦃post⟨fun e s => ⌜(∃ a, source s0 = .ok a) ∧
        (∃ cs, s0.liveFolder (holder t) parent = .ok cs) ∧
        ∃ k, { s0 with calls := k }.relocate sp t = .ok (e, s)⌝,
      fun _ s => ⌜(∃ k, s = { s0 with calls := k }) ∧ ∀ a cs, source s0 = .ok a →
        s0.liveFolder (holder t) parent = .ok cs →
        s0.node? t ≠ none ∨ t.isBelow sp = true ∨ t.split? = none⌝⟩⦄ := by
  unfold checkedRelocate count check apply
  mvcgen
  all_goals subst_vars
  case vc1 =>
    have ha := (hcalls _).symm.trans ‹source _ = .ok _›
    exact ⟨⟨_, ha⟩, ⟨_, ‹Store.liveFolder _ (holder t) parent = .ok _›⟩, _,
      ‹Store.relocate _ sp t = .ok _›⟩
  case vc2 =>
    have ha := (hcalls _).symm.trans ‹source _ = .ok _›
    have hr := ‹Store.relocate _ sp t = .error _›
    have h := relocate_fails hr (hsrc _ ha) ‹Store.liveFolder _ (holder t) parent = .ok _›
    exact ⟨⟨_, rfl⟩, fun _ _ _ _ => h⟩
  case vc3 =>
    have hf := ‹Store.liveFolder _ (holder t) parent = .error _›
    exact ⟨⟨_, rfl⟩, fun _ _ _ hcs => by cases hf.symm.trans hcs⟩
  case vc4 =>
    have hf := (hcalls _).symm.trans ‹source _ = .error _›
    exact ⟨⟨_, rfl⟩, fun _ _ ha _ => by cases hf.symm.trans ha⟩

theorem rename_spec (src parent : Entry) (sp t : Path) (s0 : Store) :
    ⦃fun s => ⌜s = s0⌝⦄ rename src parent sp t
    ⦃post⟨fun e s => ⌜(∃ n, s0.live sp src = .ok n) ∧
        (∃ cs, s0.liveFolder (holder t) parent = .ok cs) ∧
        ∃ k, { s0 with calls := k }.relocate sp t = .ok (e, s)⌝,
      fun _ s => ⌜(∃ k, s = { s0 with calls := k }) ∧ ∀ n cs, s0.live sp src = .ok n →
        s0.liveFolder (holder t) parent = .ok cs →
        s0.node? t ≠ none ∨ t.isBelow sp = true ∨ t.split? = none⌝⟩⦄ := by
  rw [rename_eq]
  exact checkedRelocate_spec _ _ parent sp t s0 (fun _ => rfl)
    fun _ hn => by simp [(live_eq_ok.1 hn).1]

theorem moveEntry_spec (src parent : Entry) (sp t : Path) (s0 : Store) :
    ⦃fun s => ⌜s = s0⌝⦄ moveEntry src parent sp t
    ⦃post⟨fun e s => ⌜(∃ n, s0.live sp src = .ok n) ∧
        (∃ cs, s0.liveFolder (holder t) parent = .ok cs) ∧
        ∃ k, { s0 with calls := k }.relocate sp t = .ok (e, s)⌝,
      fun _ s => ⌜(∃ k, s = { s0 with calls := k }) ∧ ∀ n cs, s0.live sp src = .ok n →
        s0.liveFolder (holder t) parent = .ok cs →
        s0.node? t ≠ none ∨ t.isBelow sp = true ∨ t.split? = none⌝⟩⦄ := by
  rw [moveEntry_eq]
  exact checkedRelocate_spec _ _ parent sp t s0 (fun _ => rfl)
    fun _ hn => by simp [(live_eq_ok.1 hn).1]

theorem moveFolder_spec (src parent : Entry) (sp t : Path) (s0 : Store) :
    ⦃fun s => ⌜s = s0⌝⦄ moveFolder src parent sp t
    ⦃post⟨fun e s => ⌜(∃ cs, s0.liveFolder sp src = .ok cs) ∧
        (∃ cs, s0.liveFolder (holder t) parent = .ok cs) ∧
        ∃ k, { s0 with calls := k }.relocate sp t = .ok (e, s)⌝,
      fun _ s => ⌜(∃ k, s = { s0 with calls := k }) ∧ ∀ cs0 cs, s0.liveFolder sp src = .ok cs0 →
        s0.liveFolder (holder t) parent = .ok cs →
        s0.node? t ≠ none ∨ t.isBelow sp = true ∨ t.split? = none⌝⟩⦄ := by
  rw [moveFolder_eq]
  exact checkedRelocate_spec _ _ parent sp t s0 (fun _ => rfl)
    fun _ hcs => by simp [liveFolder_eq_ok.1 hcs]

/-- A path taken out from below a folder can be put back: the folder is still there. -/
theorem insert_detach_ok {s : Store} {p d : Path} {name : String} {id : Nat} {cs : List String}
    (b : Body) (hs : p.split? = some (d, name)) (hd : s.node? d = some ⟨id, .folder cs⟩) :
    ∃ e s', (s.detach p).2.insert p b = .ok (e, s') := by
  have hfree : (s.detach p).2.node? p = none := by
    rw [node?_detach, if_pos (within_refl p)]
  have hd' : (s.detach p).2.node? d = some ⟨id, .folder (cs.filter (· != name))⟩ := by
    rw [node?_detach, if_neg (not_within_of_split? hs), node?_unlink_parent hs hd]
  exact ⟨_, _, insert_of_free b hfree (link_of_folder hs hd')⟩

/-- `insert` changes the nodes and the next id only. -/
theorem insert_fields {s s' : Store} {p : Path} {b : Body} {e : Entry}
    (h : s.insert p b = .ok (e, s')) : s' = { s with nodes := s'.nodes, nextId := s'.nextId } := by
  obtain ⟨-, s1, hl, -, rfl⟩ := insert_eq_ok h
  obtain ⟨d, name, id, cs, -, -, rfl⟩ := link_eq_ok hl
  rfl

/-- The end of a copy once the source's bytes and the folder above the target are checked:
the target is cleared when replacing, the file is put in, and a copy that finishes later parks
its entry. -/
def copyLand (t : Path) (replace : Bool) (data : List UInt8) : StoreM (Option Entry) := do
  if replace && (← get).nodes.contains t then modify fun s => (s.detach t).2
  let e ← apply fun s => s.insert t (.file data)
  if (← get).asyncCopy then
    modify fun s => { s with pending := s.pending ++ [(t, e)] }
    pure none
  else pure (some e)

theorem copy_eq (src parent : Entry) (sp t : Path) (replace : Bool) :
    copy src parent sp t replace = (do
      count fun c => { c with copy := c.copy + 1 }
      let data ← do
        match (← check ((← get).live sp src)).body with
        | .file d => pure d
        | .folder _ => throw (.unsupported sp Error.folderSource)
      let _ ← check ((← get).liveFolder (holder t) parent)
      copyLand t replace data) := rfl

/-- The end of a copy from `s0`, given what the checks before it found. -/
theorem copyLand_spec (src parent : Entry) (sp t : Path) (replace : Bool) (data : List UInt8)
    (s0 : Store) :
    ⦃fun s => ⌜(∃ n, s0.live sp src = .ok n ∧ n.body = .file data) ∧
        (∃ cs, s0.liveFolder (holder t) parent = .ok cs) ∧ ∃ k, s = { s0 with calls := k }⌝⦄
    copyLand t replace data
    ⦃post⟨fun r s => ⌜∃ n data, s0.live sp src = .ok n ∧ n.body = .file data ∧
        (∃ cs, s0.liveFolder (holder t) parent = .ok cs) ∧ ∃ k e s2,
          (if replace && s0.nodes.contains t then ({ s0 with calls := k }.detach t).2
            else { s0 with calls := k }).insert t (.file data) = .ok (e, s2) ∧
          (if s0.asyncCopy then s = { s2 with pending := s2.pending ++ [(t, e)] } ∧ r = none
            else s = s2 ∧ r = some e)⌝,
      fun _ s => ⌜((∃ k, s = { s0 with calls := k }) ∧ ∀ n data cs, s0.live sp src = .ok n →
          n.body = .file data → s0.liveFolder (holder t) parent = .ok cs →
          s0.node? t ≠ none ∨ t.split? = none) ∨
        (t.split? = none ∧ ∃ k, s = ({ s0 with calls := k }.detach t).2)⌝⟩⦄ := by
  unfold copyLand apply
  mvcgen
  all_goals obtain ⟨⟨n, hn, hdata⟩, ⟨cs, hcs⟩, k, rfl⟩ := ‹(∃ n, _) ∧ _›
  case vc1 =>
    have hrc : (replace && s0.nodes.contains t) = true := ‹(replace && _) = true›
    have hins := ‹Store.insert _ t _ = .ok _›
    have hasync : s0.asyncCopy = true := by
      have h := ‹Store.asyncCopy _ = true›
      rw [insert_fields hins] at h
      simpa +zetaDelta [detach_snd] using h
    exact ⟨n, data, hn, hdata, ⟨cs, hcs⟩, k, _, _, by rw [if_pos hrc]; exact hins,
      by rw [if_pos hasync]⟩
  case vc2 =>
    have hrc : (replace && s0.nodes.contains t) = true := ‹(replace && _) = true›
    have hins := ‹Store.insert _ t _ = .ok _›
    have hasync : ¬ s0.asyncCopy = true := by
      have h := ‹¬ Store.asyncCopy _ = true›
      rw [insert_fields hins] at h
      simpa +zetaDelta [detach_snd] using h
    exact ⟨n, data, hn, hdata, ⟨cs, hcs⟩, k, _, _, by rw [if_pos hrc]; exact hins,
      by rw [if_neg hasync]; exact ⟨rfl, rfl⟩⟩
  case vc3 =>
    -- with the target cleared, an insert fails only at the root
    refine Or.inr ⟨?_, _, rfl⟩
    cases hsplit : t.split? with
    | none => rfl
    | some dn =>
      obtain ⟨d, name⟩ := dn
      have hd := liveFolder_eq_ok.1 hcs
      rw [holder_of_split? hsplit] at hd
      obtain ⟨e', s', hok⟩ := insert_detach_ok (s := { s0 with calls := k }) (.file data) hsplit hd
      cases hok.symm.trans ‹Store.insert _ t _ = .error _›
  case vc4 =>
    have hrc : ¬ (replace && s0.nodes.contains t) = true := ‹¬ (replace && _) = true›
    have hins := ‹Store.insert _ t _ = .ok _›
    have hasync : s0.asyncCopy = true := by
      have h := ‹Store.asyncCopy _ = true›
      rw [insert_fields hins] at h
      exact h
    exact ⟨n, data, hn, hdata, ⟨cs, hcs⟩, k, _, _, by rw [if_neg hrc]; exact hins,
      by rw [if_pos hasync]⟩
  case vc5 =>
    have hrc : ¬ (replace && s0.nodes.contains t) = true := ‹¬ (replace && _) = true›
    have hins := ‹Store.insert _ t _ = .ok _›
    have hasync : ¬ s0.asyncCopy = true := by
      have h := ‹¬ Store.asyncCopy _ = true›
      rw [insert_fields hins] at h
      exact h
    exact ⟨n, data, hn, hdata, ⟨cs, hcs⟩, k, _, _, by rw [if_neg hrc]; exact hins,
      by rw [if_neg hasync]; exact ⟨rfl, rfl⟩⟩
  case vc6 =>
    have hins := ‹Store.insert _ t _ = .error _›
    have h := insert_fails hins hcs
    exact Or.inl ⟨⟨_, rfl⟩, fun _ _ _ _ _ _ => h⟩

theorem copy_spec (src parent : Entry) (sp t : Path) (replace : Bool) (s0 : Store) :
    ⦃fun s => ⌜s = s0⌝⦄ copy src parent sp t replace
    ⦃post⟨fun r s => ⌜∃ n data, s0.live sp src = .ok n ∧ n.body = .file data ∧
        (∃ cs, s0.liveFolder (holder t) parent = .ok cs) ∧ ∃ k e s2,
          (if replace && s0.nodes.contains t then ({ s0 with calls := k }.detach t).2
            else { s0 with calls := k }).insert t (.file data) = .ok (e, s2) ∧
          (if s0.asyncCopy then s = { s2 with pending := s2.pending ++ [(t, e)] } ∧ r = none
            else s = s2 ∧ r = some e)⌝,
      fun _ s => ⌜((∃ k, s = { s0 with calls := k }) ∧ ∀ n data cs, s0.live sp src = .ok n →
          n.body = .file data → s0.liveFolder (holder t) parent = .ok cs →
          s0.node? t ≠ none ∨ t.split? = none) ∨
        (t.split? = none ∧ ∃ k, s = ({ s0 with calls := k }.detach t).2)⌝⟩⦄ := by
  have hland := copyLand_spec src parent sp t replace
  rw [copy_eq]
  unfold count check
  mvcgen [hland]
  all_goals subst_vars
  case vc1 =>
    exact ⟨⟨_, ‹Store.live _ sp src = .ok _›, ‹Node.body _ = .file _›⟩,
      ⟨_, ‹Store.liveFolder _ _ parent = .ok _›⟩, _, rfl⟩
  case vc2 =>
    have hf := ‹Store.liveFolder _ _ parent = .error _›
    exact Or.inl ⟨⟨_, rfl⟩, fun _ _ _ _ _ hcs => by cases hf.symm.trans hcs⟩
  case vc3 =>
    -- a folder source is refused before anything changes
    have hn := ‹Store.live _ sp src = .ok _›
    have hfold := ‹Node.body _ = .folder _›
    refine Or.inl ⟨⟨_, rfl⟩, fun _ _ _ hn' hdata _ => ?_⟩
    cases hn.symm.trans hn'
    rw [hfold] at hdata
    cases hdata
  case vc4 =>
    have hf := ‹Store.live _ sp src = .error _›
    exact Or.inl ⟨⟨_, rfl⟩, fun _ _ _ hn _ _ => by cases hf.symm.trans hn⟩

theorem download_spec (e : Entry) (p : Path) (s0 : Store) :
    ⦃fun s => ⌜s = s0⌝⦄ download e p
    ⦃post⟨fun d s => ⌜(∃ k, s = { s0 with calls := k }) ∧ ∃ n data, s0.live p e = .ok n ∧
        n.body = .file data ∧ d = (match s0.downloadLimit with | some m => data.take m | none => data)⌝,
      fun _ s => ⌜∃ k, s = { s0 with calls := k }⌝⟩⦄ := by
  unfold download count check
  mvcgen
  · rename_i n hn data hd
    exact ⟨⟨_, by subst_vars; rfl⟩, n, data, by subst_vars; exact hn, hd, by subst_vars; rfl⟩
  all_goals exact ⟨_, by subst_vars; rfl⟩

theorem upload_spec (parent : Entry) (p : Path) (replace append : Bool) (s0 : Store) :
    ⦃fun s => ⌜s = s0⌝⦄ upload parent p replace append
    ⦃post⟨fun b s => ⌜(∃ k, s = { s0 with calls := k }) ∧
        (∃ cs, s0.liveFolder (holder p) parent = .ok cs) ∧
        (s0.node? p = none ∧ b = [] ∨
          ∃ id data, s0.node? p = some ⟨id, .file data⟩ ∧ b = if append then data else [])⌝,
      fun _ s => ⌜∃ k, s = { s0 with calls := k }⌝⟩⦄ := by
  unfold upload count check
  mvcgen
  · exact ⟨_, by subst_vars; rfl⟩
  case vc2 =>
    subst_vars
    have hcs := ‹Store.liveFolder _ (holder p) parent = .ok _›
    have hn := ‹Store.node? _ p = some ⟨_, .file _⟩›
    exact ⟨⟨_, rfl⟩, ⟨_, hcs⟩, Or.inr ⟨_, _, hn, by simp⟩⟩
  case vc3 =>
    subst_vars
    have hcs := ‹Store.liveFolder _ (holder p) parent = .ok _›
    have hn := ‹Store.node? _ p = some ⟨_, .file _⟩›
    exact ⟨⟨_, rfl⟩, ⟨_, hcs⟩, Or.inr ⟨_, _, hn, by simp [‹¬ append = true›]⟩⟩
  · exact ⟨_, by subst_vars; rfl⟩
  · rename_i cs hcs hn
    exact ⟨⟨_, by subst_vars; rfl⟩, ⟨cs, by subst_vars; exact hcs⟩, Or.inl (by subst_vars; exact hn)⟩
  all_goals exact ⟨_, by subst_vars; rfl⟩

theorem commitUpload_spec (p : Path) (bytes : List UInt8) (s0 : Store) :
    ⦃fun s => ⌜s = s0⌝⦄ commitUpload p bytes
    ⦃post⟨fun r s => ⌜(∃ n, s0.node? p = some n ∧ s = (s0.overwrite p n (.file bytes)).2 ∧
          r = some (s0.overwrite p n (.file bytes)).1) ∨
        (s0.node? p = none ∧ ∃ e, s0.insert p (.file bytes) = .ok (e, s) ∧ r = some e)⌝,
      fun _ s => ⌜s = s0⌝⟩⦄ := by
  unfold commitUpload apply
  mvcgen
  · rename_i n hn
    exact Or.inl ⟨n, by subst_vars; exact hn, by subst_vars; rfl, by subst_vars; rfl⟩
  · rename_i hn e s hi
    exact Or.inr ⟨by subst_vars; exact hn, e, by subst_vars; exact hi, rfl⟩

end Store

end FrontCache
