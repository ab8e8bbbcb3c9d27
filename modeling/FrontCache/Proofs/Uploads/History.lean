import Mathlib.Data.List.Dedup
import Mathlib.Data.List.Induction
import FrontCache.Uploads
/-!
# Upload records as a function of the calls made

The tracker is driven by three calls: `start` hands out the next ticket and puts a fresh
record on its path, `observe` raises a record's size, and `finish` ends a record when it is
given the record's ticket. This module reads the tracker's state back off the history of
calls made to it from the empty tracker (`Uploads.calls`).

`Leaves cs p r` says, of the history alone, which record `cs` leaves for `p`: the last start
on `p` is followed by no finish under its ticket, that ticket is the number of starts up to
and including it, and the size is the largest of the start's initial size and the sizes
observed for `p` since. One more call changes the tracker (`get?_call`) and the description
(`leaves_append`) in the same way, so by induction over the history the two agree
(`calls_follow`).

Main statement (`tracker_follows_history`): the i-th start answers ticket i; the tracker holds
exactly the records the history leaves; a finish answers `true` exactly when it removes a
record; a call on one path changes no other path's record; and `count` is the number of paths
with a record.
-/
namespace FrontCache

namespace Table

variable {κ α : Type}

theorem mem_keys_iff [DecidableEq κ] (t : Table κ α) (k : κ) : k ∈ t.keys ↔ (t.get? k).isSome := by
  simp [keys, get?, List.find?_isSome]

theorem keys_nodup (t : Table κ α) : t.keys.Nodup := t.nodup

theorem size_eq_length_keys (t : Table κ α) : t.size = t.keys.length := by
  simp [size, keys]

end Table

namespace Uploads

/-! ### What each operation does to the records -/

theorem get?_start (u : Uploads) (p : Path) (s : Nat) (q : Path) :
    (u.start p s).2.records.get? q =
      if q = p then some ⟨u.nextTicket, s⟩ else u.records.get? q := by
  simp [start]

@[simp] theorem nextTicket_start (u : Uploads) (p : Path) (s : Nat) :
    (u.start p s).2.nextTicket = u.nextTicket + 1 := rfl

theorem get?_observe (u : Uploads) (p : Path) (n : Nat) (q : Path) :
    (u.observe p n).records.get? q =
      if q = p then (u.records.get? p).map fun r => { r with size := max r.size n }
      else u.records.get? q := by
  unfold observe
  by_cases hq : q = p
  · subst hq
    split <;> simp [*]
  · split <;> simp [hq]

/-- Raising a size keeps every record's ticket. -/
theorem ticket_observe (u : Uploads) (p : Path) (size : Nat) (q : Path) :
    ((u.observe p size).records.get? q).map Upload.ticket =
      (u.records.get? q).map Upload.ticket := by
  rw [get?_observe]
  split
  · rename_i hq
    subst hq
    cases u.records.get? q <;> rfl
  · rfl

@[simp] theorem nextTicket_observe (u : Uploads) (p : Path) (size : Nat) :
    (u.observe p size).nextTicket = u.nextTicket := by
  unfold observe
  split <;> rfl

@[simp] theorem nextTicket_finish (u : Uploads) (p : Path) (t : Nat) :
    (u.finish p t).2.nextTicket = u.nextTicket := by
  unfold finish
  split
  · split <;> rfl
  · rfl

/-- `finish` drops the record of its path when it holds the ticket, and nothing else. -/
theorem get?_finish (u : Uploads) (p : Path) (t : Nat) (q : Path) :
    (u.finish p t).2.records.get? q =
      if q = p ∧ (u.records.get? p).map Upload.ticket = some t then none
      else u.records.get? q := by
  unfold finish
  split
  · rename_i r hr
    by_cases ht : r.ticket = t
    · by_cases hq : q = p <;> simp [ht, hq, hr]
    · by_cases hq : q = p
      · subst hq
        simp [ht, hr]
      · simp [ht, hq]
  · rename_i hr
    by_cases hq : q = p
    · subst hq
      simp [hr]
    · simp [hq]

/-- A finish answers `true` exactly when its path had a record and has none after it. -/
theorem finish_eq_true_iff (u : Uploads) (p : Path) (t : Nat) :
    (u.finish p t).1 = true ↔
      (u.records.get? p).isSome ∧ (u.finish p t).2.records.get? p = none := by
  rw [get?_finish]
  unfold finish
  cases hr : u.records.get? p with
  | none => simp
  | some r => by_cases ht : r.ticket = t <;> simp [ht]

/-! ### Histories of calls -/

/-- A call on the tracker. -/
inductive Call where
  | start (p : Path) (initial : Nat)
  | observe (p : Path) (size : Nat)
  | finish (p : Path) (ticket : Nat)
  deriving DecidableEq

/-- What a call answers: the ticket a start hands out, nothing for an observation, and for a
finish whether it ended a record. -/
inductive Reply where
  | ticket (t : Nat)
  | done
  | ended (removed : Bool)
  deriving DecidableEq

namespace Call

/-- The path a call is about. -/
def path : Call → Path
  | .start p _ => p
  | .observe p _ => p
  | .finish p _ => p

def isStart : Call → Bool
  | .start _ _ => true
  | _ => false

/-- The size of a record of `p` after the call, from `m`: only an observation of `p` raises
it. -/
def raise (p : Path) (m : Nat) : Call → Nat
  | .observe q n => if q = p then max m n else m
  | _ => m

end Call

/-- A call on the tracker: its answer and the tracker after it. -/
def call (u : Uploads) : Call → Reply × Uploads
  | .start p s => (.ticket (u.start p s).1, (u.start p s).2)
  | .observe p n => (.done, u.observe p n)
  | .finish p t => (.ended (u.finish p t).1, (u.finish p t).2)

/-- Calls made in order: their answers and the tracker they leave. -/
def calls (u : Uploads) : List Call → List Reply × Uploads
  | [] => ([], u)
  | c :: cs => ((u.call c).1 :: ((u.call c).2.calls cs).1, ((u.call c).2.calls cs).2)

/-- Running `cs ++ ds` runs `cs`, then `ds` on the tracker `cs` left. -/
theorem calls_append (u : Uploads) (cs ds : List Call) :
    u.calls (cs ++ ds) =
      ((u.calls cs).1 ++ ((u.calls cs).2.calls ds).1, ((u.calls cs).2.calls ds).2) := by
  induction cs generalizing u with
  | nil => rfl
  | cons c cs ih => simp [calls, ih]

theorem length_calls (u : Uploads) (cs : List Call) : (u.calls cs).1.length = cs.length := by
  induction cs generalizing u with
  | nil => rfl
  | cons c cs ih => simp [calls, ih]

/-- A call is answered by the tracker the calls before it left. -/
theorem calls_getElem?_length (u : Uploads) (pre : List Call) (c : Call) (post : List Call) :
    (u.calls (pre ++ c :: post)).1[pre.length]? = some ((u.calls pre).2.call c).1 := by
  rw [calls_append]
  dsimp only
  rw [List.getElem?_append_right (Nat.le_of_eq (length_calls u pre))]
  simp [length_calls, calls]

theorem calls_concat (u : Uploads) (cs : List Call) (c : Call) :
    (u.calls (cs ++ [c])).2 = ((u.calls cs).2.call c).2 := by
  rw [calls_append]
  rfl

/-- The number of starts in a history: the tickets it handed out. -/
def startCount (cs : List Call) : Nat := cs.countP Call.isStart

/-- The record the history `cs` leaves for `p`: after the last start on `p` comes no finish
under that start's ticket, the number of starts up to it; the record holds that ticket and
the largest of the start's initial size and the sizes observed for `p` since. -/
def Leaves (cs : List Call) (p : Path) (r : Upload) : Prop :=
  ∃ pre s post, cs = pre ++ .start p s :: post ∧ (∀ s', .start p s' ∉ post) ∧
    .finish p (startCount pre + 1) ∉ post ∧
    r = ⟨startCount pre + 1, post.foldl (Call.raise p) s⟩

/-! ### One call at a time -/

/-- After a call, `p` has the record `r` iff the call started it, or `p` had a record that
the call neither replaced nor finished and `r` is that record, raised by the call. -/
theorem get?_call (u : Uploads) (c : Call) (p : Path) (r : Upload) :
    (u.call c).2.records.get? p = some r ↔
      (∃ s, c = .start p s ∧ r = ⟨u.nextTicket, s⟩) ∨
      ∃ r0, u.records.get? p = some r0 ∧ (∀ s, c ≠ .start p s) ∧ c ≠ .finish p r0.ticket ∧
        r = ⟨r0.ticket, c.raise p r0.size⟩ := by
  cases c with
  | start q s =>
    simp only [call, get?_start]
    by_cases hq : p = q
    · subst hq
      simp [eq_comm]
    · simp [hq, Call.raise, eq_comm]
  | observe q n =>
    simp only [call, get?_observe]
    by_cases hq : p = q
    · subst hq
      cases hr : u.records.get? p with
      | none => simp
      | some r0 => simp [Call.raise, eq_comm]
    · simp [hq, Call.raise, eq_comm]
  | finish q t =>
    simp only [call, get?_finish]
    by_cases hq : p = q
    · subst hq
      cases hr : u.records.get? p with
      | none => simp
      | some r0 => by_cases ht : r0.ticket = t <;> simp [ht, Call.raise, eq_comm]
    · simp [hq, Call.raise, eq_comm]

/-- The record `cs ++ [c]` leaves for `p`: the one `c` starts, or the one `cs` left, when `c`
neither replaces nor finishes it, raised by `c`. -/
theorem leaves_append (cs : List Call) (c : Call) (p : Path) (r : Upload) :
    Leaves (cs ++ [c]) p r ↔
      (∃ s, c = .start p s ∧ r = ⟨startCount cs + 1, s⟩) ∨
      ∃ r0, Leaves cs p r0 ∧ (∀ s, c ≠ .start p s) ∧ c ≠ .finish p r0.ticket ∧
        r = ⟨r0.ticket, c.raise p r0.size⟩ := by
  constructor
  · rintro ⟨pre, s, post, hcs, hstart, hfin, rfl⟩
    rcases List.eq_nil_or_concat post with rfl | ⟨post', x, rfl⟩
    · obtain ⟨rfl, hc⟩ := List.append_inj' hcs rfl
      exact .inl ⟨s, List.singleton_inj.1 hc, rfl⟩
    · rw [List.concat_eq_append, ← List.cons_append, ← List.append_assoc] at hcs
      obtain ⟨rfl, hc⟩ := List.append_inj' hcs rfl
      obtain rfl := (List.singleton_inj.1 hc).symm
      refine .inr ⟨_, ⟨pre, s, post', rfl, fun s' h => hstart s' (by simp [h]),
        fun h => hfin (by simp [h]), rfl⟩, fun s' h => hstart s' (by simp [h]),
        fun h => hfin (by simp [h]), ?_⟩
      simp
  · rintro (⟨s, rfl, rfl⟩ | ⟨r0, ⟨pre, s, post, rfl, hstart, hfin, rfl⟩, hc, hcf, rfl⟩)
    · exact ⟨cs, s, [], rfl, by simp, by simp, rfl⟩
    · refine ⟨pre, s, post ++ [c], by simp, ?_, ?_, by simp⟩
      · intro s' h
        rcases List.mem_append.1 h with h | h
        · exact hstart s' h
        · exact hc s' (List.mem_singleton.1 h).symm
      · intro h
        rcases List.mem_append.1 h with h | h
        · exact hfin h
        · exact hcf (List.mem_singleton.1 h).symm

/-! ### Along a history -/

/-- Along every history from the empty tracker, the next ticket is one past the starts made,
and the records are the ones the history leaves. -/
theorem calls_follow (cs : List Call) :
    (({} : Uploads).calls cs).2.nextTicket = startCount cs + 1 ∧
      ∀ p r, (({} : Uploads).calls cs).2.records.get? p = some r ↔ Leaves cs p r := by
  induction cs using List.reverseRecOn with
  | nil => exact ⟨rfl, fun p r => by simp [calls, Leaves]⟩
  | append_singleton cs c ih =>
    obtain ⟨hnext, hrec⟩ := ih
    rw [calls_concat]
    refine ⟨?_, fun p r => ?_⟩
    · cases c <;> simp [call, startCount, List.countP_append, Call.isStart, hnext] at *
    · rw [get?_call, leaves_append, hnext]
      simp only [hrec]

/-- A path with a record was started in the history. -/
theorem mem_paths_of_leaves {cs : List Call} {p : Path} {r : Upload} (h : Leaves cs p r) :
    p ∈ cs.map Call.path := by
  obtain ⟨pre, s, post, rfl, -⟩ := h
  exact List.mem_map.2 ⟨.start p s, by simp, rfl⟩

/-- `count` is the length of any list that holds each path with a record once. -/
theorem count_eq_length (u : Uploads) {l : List Path} (hl : l.Nodup)
    (hmem : ∀ p, p ∈ l ↔ (u.records.get? p).isSome) : u.count = l.length := by
  have hperm : u.records.keys.Perm l :=
    (List.perm_ext_iff_of_nodup (Table.keys_nodup _) hl).2 fun p => by
      rw [Table.mem_keys_iff, hmem]
  rw [count, Table.size_eq_length_keys, hperm.length_eq]

/-- The tracker follows its history of calls: the i-th start answers ticket i; `p` has a record
exactly when its last start was not finished under its ticket, sized by the largest size since;
a finish answers whether it removed a record; other paths are untouched; `count` counts records. -/
theorem tracker_follows_history (cs : List Call) :
    (∀ pre p s post, cs = pre ++ .start p s :: post →
      (({} : Uploads).calls cs).1[pre.length]? = some (.ticket (startCount pre + 1))) ∧
    (∀ p r, (({} : Uploads).calls cs).2.records.get? p = some r ↔ Leaves cs p r) ∧
    (∀ (u : Uploads) p t,
      (u.finish p t).1 = true ↔
        (u.records.get? p).isSome ∧ (u.finish p t).2.records.get? p = none) ∧
    (∀ (u : Uploads) (c : Call) q, q ≠ c.path → (u.call c).2.records.get? q = u.records.get? q) ∧
    (({} : Uploads).calls cs).2.count =
      ((cs.map Call.path).dedup.filter
        fun p => ((({} : Uploads).calls cs).2.records.get? p).isSome).length := by
  refine ⟨?_, (calls_follow cs).2, finish_eq_true_iff, ?_, ?_⟩
  · rintro pre p s post rfl
    rw [calls_getElem?_length]
    simp [call, start, (calls_follow pre).1]
  · intro u c q hq
    cases c with
    | start p s => simp_all [call, get?_start, Call.path]
    | observe p n => simp_all [call, get?_observe, Call.path]
    | finish p t => simp_all [call, get?_finish, Call.path]
  · apply count_eq_length _ ((List.nodup_dedup _).filter _)
    intro p
    rw [List.mem_filter, List.mem_dedup]
    constructor
    · exact fun h => by simpa using h.2
    · intro h
      obtain ⟨r, hr⟩ := Option.isSome_iff_exists.1 h
      exact ⟨mem_paths_of_leaves (((calls_follow cs).2 p r).1 hr), by simpa using h⟩

/-- A stale ticket does not finish the newer upload of the same path. -/
example : (({} : Uploads).calls [.start (Path.root.join "f") 0, .start (Path.root.join "f") 0,
    .finish (Path.root.join "f") 1, .finish (Path.root.join "f") 2]).1 =
    [.ticket 1, .ticket 2, .ended false, .ended true] := by
  cbv

end Uploads

end FrontCache
