import Mathlib.Data.List.Nodup
import FrontCache.Proofs.Mount.Actions
import FrontCache.Proofs.Uploads.History
/-!
# Upload records follow the open handles

The upload tracker keeps at most one record per path, under the ticket of the upload that
started it, and a handle can end the record only while it holds that ticket. Handles, on
the other side, are numbered by the mount and may share a path. This module ties the two
together along every run of a mounted volume.

The history of a run is the list of handles it opened, under their numbers (`openings`); an
open that fails opens nothing. `liveTicket` reads off that history the ticket the tracker
should hold for a path: that of the last handle opened on the path, while that handle is
still open. `UploadsTrack` is the invariant: tickets rise along the history and stay below
the tracker's counter, handle numbers are distinct and below the mount's counter, every open
handle is one of the history's with its path and ticket, and every record holds exactly the
live ticket of its path.

Main statements: every action keeps the invariant (`UploadsTrack.act`), so every run does
(`UploadsTrack.replay`); hence the tracker has a record for a path iff the handle that
received the latest ticket for it is still open, and it is empty when no handle is open
(`records_follow_open_handles`).
-/
namespace FrontCache

namespace Table

variable {κ α : Type} [DecidableEq κ]

/-- A table where no key has a value has no pairs. -/
theorem size_eq_zero_of_get? (t : Table κ α) (h : ∀ k, t.get? k = none) : t.size = 0 := by
  cases hp : t.pairs with
  | nil => simp [size, hp]
  | cons kv rest =>
    have hk := h kv.1
    simp [get?, hp] at hk

end Table

namespace Mount

/-! ### The history of a run -/

/-- The handle an action opens, under its number: only an open that succeeds opens one. -/
def opened (m : Mount) : Action → Option (Nat × Handle)
  | .openWrite p replace append =>
    match (((Volume.openWrite p replace append).run).run m.volume).1 with
    | .ok h => some (m.nextHandle, h)
    | .error _ => none
  | _ => none

/-- The handles a run opens, in order, under their numbers. -/
def openings (m : Mount) : List Action → List (Nat × Handle)
  | [] => []
  | a :: acts => (m.opened a).toList ++ openings (m.act a) acts

/-- The last handle of a history opened on `p`. -/
def lastOpened (L : List (Nat × Handle)) (p : Path) : Option (Nat × Handle) :=
  (L.filter fun x => x.2.path = p).getLast?

/-- The ticket the tracker should hold for `p`: that of the last handle opened on `p`, while
the handle is open. -/
def liveTicket (handles : Table Nat Handle) (L : List (Nat × Handle)) (p : Path) : Option Nat :=
  (lastOpened L p).bind fun x => if (handles.get? x.1).isSome then some x.2.ticket else none

theorem lastOpened_append (L : List (Nat × Handle)) (x : Nat × Handle) (p : Path) :
    lastOpened (L ++ [x]) p = if x.2.path = p then some x else lastOpened L p := by
  unfold lastOpened
  by_cases hx : x.2.path = p <;> simp [List.filter_append, hx]

theorem lastOpened_mem {L : List (Nat × Handle)} {p : Path} {x : Nat × Handle}
    (h : lastOpened L p = some x) : x ∈ L ∧ x.2.path = p := by
  have hm := List.mem_of_getLast? h
  simpa using hm

theorem liveTicket_eq_some_iff (handles : Table Nat Handle) (L : List (Nat × Handle)) (p : Path)
    (t : Nat) :
    liveTicket handles L p = some t ↔
      ∃ x, lastOpened L p = some x ∧ (handles.get? x.1).isSome ∧ x.2.ticket = t := by
  unfold liveTicket
  cases lastOpened L p with
  | none => simp
  | some x => by_cases hx : (handles.get? x.1).isSome <;> simp [hx]

/-- Closing handle `n` ends the live ticket of the path it was the last opened on. -/
theorem liveTicket_erase (handles : Table Nat Handle) (L : List (Nat × Handle)) (n : Nat)
    (p : Path) :
    liveTicket (handles.erase n) L p =
      if (lastOpened L p).map Prod.fst = some n then none else liveTicket handles L p := by
  unfold liveTicket
  cases lastOpened L p with
  | none => simp
  | some x => by_cases hx : x.1 = n <;> simp [hx]

/-- While tickets rise along the history, the last handle opened on `p` is the one holding
the largest ticket issued for `p`. -/
theorem lastOpened_eq_some_iff {L : List (Nat × Handle)}
    (hL : L.Pairwise fun x y => x.2.ticket < y.2.ticket)
    (p : Path) (x : Nat × Handle) :
    lastOpened L p = some x ↔
      x ∈ L ∧ x.2.path = p ∧ ∀ y ∈ L, y.2.path = p → y.2.ticket ≤ x.2.ticket := by
  have hmax : ∀ z, lastOpened L p = some z →
      ∀ y ∈ L, y.2.path = p → y.2.ticket ≤ z.2.ticket := by
    intro z hz y hy hyp
    obtain ⟨ys, hys⟩ := List.getLast?_eq_some_iff.1 hz
    have hf : (L.filter fun x => x.2.path = p).Pairwise fun x y => x.2.ticket < y.2.ticket :=
      hL.filter _
    rw [hys, List.pairwise_append] at hf
    have hmem : y ∈ ys ++ [z] := hys ▸ List.mem_filter.2 ⟨hy, by simpa using hyp⟩
    rcases List.mem_append.1 hmem with hy' | hy'
    · exact Nat.le_of_lt (hf.2.2 y hy' z (List.mem_singleton_self z))
    · rw [List.mem_singleton.1 hy']
  constructor
  · intro h
    exact ⟨(lastOpened_mem h).1, (lastOpened_mem h).2, hmax x h⟩
  · rintro ⟨hx, hxp, hxmax⟩
    obtain ⟨z, hz⟩ : ∃ z, lastOpened L p = some z :=
      Option.isSome_iff_exists.1 (List.getLast?_isSome.2
        (List.ne_nil_of_mem (List.mem_filter.2 ⟨hx, by simpa using hxp⟩)))
    have hzL := lastOpened_mem hz
    have hticket : z.2.ticket = x.2.ticket :=
      Nat.le_antisymm (hxmax z hzL.1 hzL.2) (hmax z hz x hx hxp)
    have hnodup : (L.map fun y => y.2.ticket).Nodup :=
      List.pairwise_map.2 (hL.imp Nat.ne_of_lt)
    rw [hz, List.inj_on_of_nodup_map hnodup hzL.1 hx hticket]

/-! ### The invariant -/

/-- The upload tracker `u` follows the handles `handles`, numbered below `next`, opened along
the history `L`. -/
structure UploadsTrack (u : Uploads) (handles : Table Nat Handle) (next : Nat)
    (L : List (Nat × Handle)) : Prop where
  ticketsRise : L.Pairwise fun x y => x.2.ticket < y.2.ticket
  ticketsIssued : ∀ x ∈ L, x.2.ticket < u.nextTicket
  numbersDistinct : (L.map Prod.fst).Nodup
  numbersIssued : ∀ x ∈ L, x.1 < next
  handlesOpened : ∀ n h, handles.get? n = some h →
    ∃ h0, (n, h0) ∈ L ∧ h0.path = h.path ∧ h0.ticket = h.ticket
  records : ∀ p, (u.records.get? p).map Upload.ticket = liveTicket handles L p

/-- The invariant for a mount. -/
abbrev Tracks (m : Mount) (L : List (Nat × Handle)) : Prop :=
  UploadsTrack m.volume.uploads m.handles m.nextHandle L

namespace UploadsTrack

variable {u : Uploads} {handles : Table Nat Handle} {next : Nat} {L : List (Nat × Handle)}

theorem empty (next : Nat) : UploadsTrack {} ∅ next [] where
  ticketsRise := List.Pairwise.nil
  ticketsIssued := by simp
  numbersDistinct := List.nodup_nil
  numbersIssued := by simp
  handlesOpened := by simp
  records := by simp [liveTicket, lastOpened]

/-- A handle number of the history names at most one handle. -/
theorem eq_of_number (h : UploadsTrack u handles next L) {n : Nat} {a b : Handle}
    (ha : (n, a) ∈ L) (hb : (n, b) ∈ L) : a = b :=
  congrArg Prod.snd (List.inj_on_of_nodup_map h.numbersDistinct ha hb rfl)

/-- A ticket of the history names at most one handle. -/
theorem eq_of_ticket (h : UploadsTrack u handles next L) {x y : Nat × Handle}
    (hx : x ∈ L) (hy : y ∈ L) (ht : x.2.ticket = y.2.ticket) : x = y :=
  List.inj_on_of_nodup_map (List.pairwise_map.2 (h.ticketsRise.imp Nat.ne_of_lt)) hx hy ht

/-- A failed open uses up a number and changes nothing else. -/
theorem bump (h : UploadsTrack u handles next L) : UploadsTrack u handles (next + 1) L :=
  { h with numbersIssued := fun x hx => Nat.lt_succ_of_lt (h.numbersIssued x hx) }

/-- An open that succeeds: the tracker starts a record under the next ticket, and the
handle, holding that ticket, takes the next number. -/
theorem start (h : UploadsTrack u handles next L) (hd : Handle) (pos : Nat)
    (hticket : hd.ticket = u.nextTicket) :
    UploadsTrack (u.start hd.path pos).2 (handles.insert next hd) (next + 1)
      (L ++ [(next, hd)]) where
  ticketsRise := List.pairwise_append.2 ⟨h.ticketsRise, List.pairwise_singleton _ _,
    fun x hx y hy => by
      rw [List.mem_singleton.1 hy, hticket]
      exact h.ticketsIssued x hx⟩
  ticketsIssued := by
    intro x hx
    rcases List.mem_append.1 hx with hx | hx
    · exact Nat.lt_succ_of_lt (h.ticketsIssued x hx)
    · rw [List.mem_singleton.1 hx, hticket]
      exact Nat.lt_succ_self _
  numbersDistinct := by
    rw [List.map_append, List.nodup_append]
    refine ⟨h.numbersDistinct, List.nodup_singleton _, fun a ha b hb => ?_⟩
    obtain ⟨x, hx, rfl⟩ := List.mem_map.1 ha
    rw [List.map_singleton, List.mem_singleton.1 hb] at *
    exact Nat.ne_of_lt (h.numbersIssued x hx)
  numbersIssued := by
    intro x hx
    rcases List.mem_append.1 hx with hx | hx
    · exact Nat.lt_succ_of_lt (h.numbersIssued x hx)
    · rw [List.mem_singleton.1 hx]
      exact Nat.lt_succ_self _
  handlesOpened := by
    intro n h' hn
    rw [Table.get?_insert] at hn
    split at hn
    · cases hn
      rename_i hnext
      exact ⟨hd, by simp [hnext], rfl, rfl⟩
    · obtain ⟨h0, hm, hp, ht⟩ := h.handlesOpened n h' hn
      exact ⟨h0, List.mem_append_left _ hm, hp, ht⟩
  records := by
    intro q
    simp only [Uploads.start, Table.get?_insert, liveTicket, lastOpened_append]
    by_cases hq : hd.path = q
    · subst hq
      simp [hticket]
    · have hq' : q ≠ hd.path := fun e => hq e.symm
      rw [if_neg hq', if_neg hq, h.records q]
      cases hl : lastOpened L q with
      | none => simp [liveTicket, hl]
      | some x =>
        have hne : x.1 ≠ next := Nat.ne_of_lt (h.numbersIssued x (lastOpened_mem hl).1)
        simp [liveTicket, hl, hne]

/-- A write through handle `n`: the handle keeps its path and ticket, the tracker its
tickets. -/
theorem write (h : UploadsTrack u handles next L) {u' : Uploads} {n : Nat} {hd hd' : Handle}
    (hn : handles.get? n = some hd) (hpath : hd'.path = hd.path) (hticket : hd'.ticket = hd.ticket)
    (hnext : u'.nextTicket = u.nextTicket)
    (hrec : ∀ q, (u'.records.get? q).map Upload.ticket = (u.records.get? q).map Upload.ticket) :
    UploadsTrack u' (handles.insert n hd') next L where
  ticketsRise := h.ticketsRise
  ticketsIssued := hnext ▸ h.ticketsIssued
  numbersDistinct := h.numbersDistinct
  numbersIssued := h.numbersIssued
  handlesOpened := by
    intro k h' hk
    rw [Table.get?_insert] at hk
    split at hk
    · cases hk
      rename_i hkn
      subst hkn
      obtain ⟨h0, hm, hp, ht⟩ := h.handlesOpened k hd hn
      exact ⟨h0, hm, hp.trans hpath.symm, ht.trans hticket.symm⟩
    · exact h.handlesOpened k h' hk
  records := by
    intro q
    rw [hrec q, h.records q]
    have hopen : ∀ k, ((handles.insert n hd').get? k).isSome = (handles.get? k).isSome := by
      intro k
      by_cases hk : k = n
      · subst hk
        simp [hn]
      · simp [hk]
    simp only [liveTicket, hopen]

/-- Handle `n` ends: the tracker finishes its path under its ticket and the handle leaves the
table. Only the record the handle started ends; a newer upload of the path stays. -/
theorem finish (h : UploadsTrack u handles next L) {n : Nat} {hd : Handle}
    (hn : handles.get? n = some hd) :
    UploadsTrack (u.finish hd.path hd.ticket).2 (handles.erase n) next L where
  ticketsRise := h.ticketsRise
  ticketsIssued := by simpa using h.ticketsIssued
  numbersDistinct := h.numbersDistinct
  numbersIssued := h.numbersIssued
  handlesOpened := by
    intro k h' hk
    rw [Table.get?_erase] at hk
    split at hk
    · cases hk
    · exact h.handlesOpened k h' hk
  records := by
    intro q
    obtain ⟨h0, hm0, hp0, ht0⟩ := h.handlesOpened n hd hn
    have hends : (q = hd.path ∧ (u.records.get? hd.path).map Upload.ticket = some hd.ticket) ↔
        (lastOpened L q).map Prod.fst = some n := by
      constructor
      · rintro ⟨rfl, ht⟩
        rw [h.records, liveTicket_eq_some_iff] at ht
        obtain ⟨x, hl, -, hxt⟩ := ht
        rw [hl, h.eq_of_ticket (lastOpened_mem hl).1 hm0 (hxt.trans ht0.symm)]
        rfl
      · intro hln
        obtain ⟨x, hl, hxn⟩ := Option.map_eq_some_iff.1 hln
        have hx0 : x = (n, h0) := Prod.ext hxn (h.eq_of_number (hxn ▸ (lastOpened_mem hl).1) hm0)
        subst hx0
        have hq : q = hd.path := (lastOpened_mem hl).2.symm.trans hp0
        subst hq
        refine ⟨rfl, ?_⟩
        rw [h.records, liveTicket_eq_some_iff]
        exact ⟨_, hl, by simp [hn], ht0⟩
    rw [Uploads.get?_finish, liveTicket_erase]
    by_cases hl : (lastOpened L q).map Prod.fst = some n
    · rw [if_pos (hends.2 hl), if_pos hl]
      rfl
    · rw [if_neg (mt hends.1 hl), if_neg hl, h.records q]

end UploadsTrack

/-! ### What each action does to the uploads -/

/-- Every volume is in the frame of the upload records alone. -/
theorem frame_true : Volume.Frame fun _ => True :=
  ⟨fun _ _ h => h, fun _ _ h => h, fun _ _ h _ => h⟩

/-- An open fails with the records as they were, or starts one upload on its path and returns
the handle holding the ticket handed out. -/
theorem openWrite_uploads (v : Volume) (p : Path) (replace append : Bool) :
    match ((Volume.openWrite p replace append).run).run v with
    | (.ok h, w) => w.uploads = (v.uploads.start p h.position).2 ∧ h.path = p ∧
        h.ticket = v.uploads.nextTicket
    | (.error _, w) => w.uploads = v.uploads := by
  have hrun := (triple_iff_run _ _ _ _).1
    (Volume.openWrite_spec frame_true v.uploads p replace append) v ⟨trivial, rfl⟩
  revert hrun
  rcases ((Volume.openWrite p replace append).run).run v with ⟨_ | h, w⟩
  · exact And.right
  · rintro ⟨w0, -, rfl, hp, ht⟩
    exact ⟨rfl, hp, ht⟩

open Std.Do in
/-- A run that, succeeding or failing, leaves a volume whose records are `f` of the ones it
started from. -/
theorem uploads_of_spec {α : Type} {x : VolM α} {f : Uploads → Uploads}
    (hx : ∀ u, ⦃fun v => ⌜True ∧ v.uploads = u⌝⦄ x
      ⦃post⟨fun _ v => ⌜∃ w : Volume, True ∧ v = { w with uploads := f u }⌝,
        fun _ v => ⌜∃ w : Volume, True ∧ v = { w with uploads := f u }⌝⟩⦄)
    (v : Volume) : ((x.run).run v).2.uploads = f v.uploads := by
  have hrun := (triple_iff_run _ _ _ _).1 (hx v.uploads) v ⟨trivial, rfl⟩
  revert hrun
  rcases (x.run).run v with ⟨_ | _, w⟩ <;>
  · rintro ⟨w0, -, rfl⟩
    rfl

/-- A commit ends the handle's own upload, whether it succeeds or not. -/
theorem commit_uploads (v : Volume) (h : Handle) :
    (((Volume.commit h).run).run v).2.uploads = (v.uploads.finish h.path h.ticket).2 :=
  uploads_of_spec (Volume.commit_spec frame_true · h) v

theorem close_uploads (v : Volume) (h : Handle) :
    (((Volume.close h).run).run v).2.uploads = (v.uploads.finish h.path h.ticket).2 :=
  uploads_of_spec (Volume.close_spec · h) v

/-- No call of a volume operation touches the upload records. -/
theorem request_uploads (m : Mount) (r : Request) :
    (m.request r).volume.uploads = m.volume.uploads :=
  (keeps_request (frame_true.uploads m.volume.uploads).steps m ⟨trivial, rfl⟩ r).2

theorem request_handles (m : Mount) (r : Request) :
    (m.request r).handles = m.handles ∧ (m.request r).nextHandle = m.nextHandle := by
  cases r <;> exact ⟨rfl, rfl⟩

/-- A write keeps the handle's path and ticket. -/
theorem write_handle (v : Volume) (h : Handle) (bytes : List UInt8) :
    (v.write h bytes).1.path = h.path ∧ (v.write h bytes).1.ticket = h.ticket := by
  unfold Volume.write
  split <;> exact ⟨rfl, rfl⟩

/-- A write at most raises a recorded size. -/
theorem write_uploads (v : Volume) (h : Handle) (bytes : List UInt8) :
    (v.write h bytes).2.uploads.nextTicket = v.uploads.nextTicket ∧
      ∀ q, ((v.write h bytes).2.uploads.records.get? q).map Upload.ticket =
        (v.uploads.records.get? q).map Upload.ticket := by
  unfold Volume.write
  split
  · exact ⟨rfl, fun _ => rfl⟩
  · exact ⟨Uploads.nextTicket_observe _ _ _, Uploads.ticket_observe _ _ _⟩

/-! ### Along a run -/

variable {m : Mount} {L : List (Nat × Handle)}

/-- One action keeps the invariant, the handle it opens added to the history. -/
theorem Tracks.act (h : m.Tracks L) (a : Action) : (m.act a).Tracks (L ++ (m.opened a).toList) := by
  cases a with
  | request r =>
    obtain ⟨hh, hn⟩ := request_handles m r
    show UploadsTrack (m.request r).volume.uploads (m.request r).handles (m.request r).nextHandle
      (L ++ [])
    rw [request_uploads, hh, hn, List.append_nil]
    exact h
  | openWrite p replace append =>
    have hrun := openWrite_uploads m.volume p replace append
    simp only [opened, act_openWrite]
    revert hrun
    rcases ((Volume.openWrite p replace append).run).run m.volume with ⟨_ | hd, w⟩
    · intro hw
      simp only [Tracks, hw, Option.toList_none, List.append_nil]
      exact h.bump
    · rintro ⟨hw, rfl, ht⟩
      simp only [Tracks, hw, Option.toList_some]
      exact h.start hd _ ht
  | write n bytes =>
    simp only [opened, Option.toList_none, List.append_nil, act_write]
    cases hn : m.handle? n with
    | none => exact h
    | some hd =>
      obtain ⟨hp, ht⟩ := write_handle m.volume hd bytes
      obtain ⟨hnext, hrec⟩ := write_uploads m.volume hd bytes
      exact h.write hn hp ht hnext hrec
  | commit n =>
    simp only [opened, Option.toList_none, List.append_nil, act_commit]
    cases hn : m.handle? n with
    | none => exact h
    | some hd =>
      simp only [Tracks, commit_uploads]
      exact h.finish hn
  | abandon n =>
    simp only [opened, Option.toList_none, List.append_nil, act_abandon]
    cases hn : m.handle? n with
    | none => exact h
    | some hd =>
      simp only [Tracks, close_uploads]
      exact h.finish hn
  | external f =>
    simp only [opened, Option.toList_none, List.append_nil]
    exact h

/-- Every run keeps the invariant, the handles it opens added to the history. -/
theorem Tracks.replay (h : m.Tracks L) (acts : List Action) :
    (m.replay acts).Tracks (L ++ m.openings acts) := by
  induction acts generalizing m L with
  | nil => simpa [openings] using h
  | cons a rest ih =>
    rw [replay_cons, openings, ← List.append_assoc]
    exact ih (h.act a)

theorem tracks_create (o : Options) : (Mount.create o).Tracks [] := UploadsTrack.empty 0

/-- In a tracked state, a path has a record iff the handle holding the largest ticket issued
for the path is still open. -/
theorem Tracks.isSome_record_iff (h : m.Tracks L) (p : Path) :
    (m.volume.uploads.records.get? p).isSome ↔
      ∃ n hd, (n, hd) ∈ L ∧ hd.path = p ∧
        (∀ x ∈ L, x.2.path = p → x.2.ticket ≤ hd.ticket) ∧
        (m.handles.get? n).isSome := by
  rw [← @Option.isSome_map _ _ Upload.ticket, h.records p, Option.isSome_iff_exists]
  simp only [liveTicket_eq_some_iff]
  constructor
  · rintro ⟨t, x, hl, hopen, -⟩
    obtain ⟨hxL, hxp, hxmax⟩ := (lastOpened_eq_some_iff h.ticketsRise p x).1 hl
    exact ⟨x.1, x.2, hxL, hxp, hxmax, hopen⟩
  · rintro ⟨n, hd, hm, hp, hmax, hopen⟩
    have hl := (lastOpened_eq_some_iff h.ticketsRise p (n, hd)).2 ⟨hm, hp, hmax⟩
    exact ⟨hd.ticket, (n, hd), hl, hopen, rfl⟩

/-- In a tracked state with no handle open, the tracker is empty. -/
theorem Tracks.count_eq_zero (h : m.Tracks L) (hnone : ∀ n, m.handles.get? n = none) :
    m.volume.uploads.count = 0 := by
  apply Table.size_eq_zero_of_get?
  intro p
  have hr := h.records p
  simp only [liveTicket, hnone, Option.isSome_none, Bool.false_eq_true, if_false] at hr
  simpa using hr

/-- An open that fails registers nothing. -/
theorem uploads_of_open_failed (m : Mount) (p : Path) (replace append : Bool)
    (hfail : m.opened (.openWrite p replace append) = none) :
    (m.act (.openWrite p replace append)).volume.uploads = m.volume.uploads := by
  have hrun := openWrite_uploads m.volume p replace append
  revert hfail hrun
  simp only [opened, act_openWrite]
  rcases ((Volume.openWrite p replace append).run).run m.volume with ⟨_ | hd, w⟩
  · exact fun _ hw => hw
  · intro hfail
    cases hfail

/-- In every state a mounted volume reaches, the tracker has a record for `p` iff the handle
that received the latest ticket issued for `p` is still open, neither committed nor
abandoned; so the tracker is empty when no handle is open. An open that fails registers
nothing. -/
theorem records_follow_open_handles (o : Options) (acts : List Action) :
    (∀ p, (((Mount.create o).replay acts).volume.uploads.records.get? p).isSome ↔
      ∃ n h, (n, h) ∈ (Mount.create o).openings acts ∧ h.path = p ∧
        (∀ x ∈ (Mount.create o).openings acts, x.2.path = p → x.2.ticket ≤ h.ticket) ∧
        (((Mount.create o).replay acts).handles.get? n).isSome) ∧
    ((∀ n, ((Mount.create o).replay acts).handles.get? n = none) →
      ((Mount.create o).replay acts).volume.uploads.count = 0) ∧
    ∀ (m : Mount) (p : Path) (replace append : Bool),
      m.opened (.openWrite p replace append) = none →
      (m.act (.openWrite p replace append)).volume.uploads = m.volume.uploads := by
  have ht := (tracks_create o).replay acts
  rw [List.nil_append] at ht
  exact ⟨ht.isSome_record_iff, ht.count_eq_zero, uploads_of_open_failed⟩

theorem tracker_empty_after_commit :
    ((∀ n, ((Mount.create {}).replay
        [.openWrite (Path.root.join "a") false false, .commit 0]).handles.get? n = none) ∧
      ((Mount.create {}).replay
        [.openWrite (Path.root.join "a") false false, .commit 0]).volume.uploads.count = 0) ∧
    ((Mount.create { readOnly := true }).opened
        (.openWrite (Path.root.join "a") false false) = none ∧
      ((Mount.create { readOnly := true }).act
        (.openWrite (Path.root.join "a") false false)).volume.uploads =
        (Mount.create { readOnly := true }).volume.uploads) := by
  have hpairs : ((Mount.create {}).replay
      [.openWrite (Path.root.join "a") false false, .commit 0]).handles.pairs = [] := by
    cbv
  have hnone : ∀ n, ((Mount.create {}).replay
      [.openWrite (Path.root.join "a") false false, .commit 0]).handles.get? n = none := by
    intro n
    rw [Table.get?, hpairs]
    rfl
  have hfail : (Mount.create { readOnly := true }).opened
      (.openWrite (Path.root.join "a") false false) = none := rfl
  exact ⟨⟨hnone, (records_follow_open_handles {} _).2.1 hnone⟩,
    hfail, (records_follow_open_handles {} []).2.2 _ _ _ _ hfail⟩

end Mount

end FrontCache
