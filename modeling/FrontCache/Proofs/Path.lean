import FrontCache.Path
/-!
# Paths as component lists

Joining a component name appends it to the components; `split?` and `parent?` take
the last component off again. `isBelow` is the strict prefix order on components,
and `reroot` carries a path from below one place to below another. The store and
the entry cache rely on these facts to put a child right below its folder.

As text, a path below `src` is `src`'s text, a slash and the rest (`asStr_of_isBelow`), and
joining that rest under `dst` gives the rerooted path: cutting a path's text at the length
of `src`'s text is the same move as `reroot`.
-/

namespace FrontCache.Path

theorem segments_of_isComponentName {n : String} (h : isComponentName n = true) :
    segments n = [n] := by
  have hslash : '/' ∉ n.toList := by
    simp only [isComponentName, Bool.and_eq_true, Bool.not_eq_eq_eq_not, Bool.not_true] at h
    simpa using h.2
  simp [segments, List.splitOn_eq_singleton hslash, String.ofList_toList]

theorem push_of_isComponentName (stack : List String) {n : String}
    (h : isComponentName n = true) : push stack n = n :: stack := by
  have : n ≠ ".." := by
    intro e; subst e; simp [isComponentName] at h
  simp [push, this, h]

theorem join_parts (p : Path) {n : String} (h : isComponentName n = true) :
    (p.join n).parts = p.parts ++ [n] := by
  simp [join, descend, segments_of_isComponentName h, pushAll, push_of_isComponentName _ h]

theorem parent?_eq_some_iff {p d : Path} : p.parent? = some d ↔ ∃ n, p.parts = d.parts ++ [n] := by
  unfold parent?
  constructor
  · intro h
    split at h
    · cases h
    · rename_i hne
      cases h
      have : p.parts ≠ [] := fun e => hne (by simp [e])
      exact ⟨p.parts.getLast this, (List.dropLast_concat_getLast this).symm⟩
  · rintro ⟨n, hn⟩
    rw [if_neg (by simp [hn])]
    congr 1
    apply ext_parts
    simp [hn]

theorem fileName?_eq_some_iff {p : Path} {n : String} :
    p.fileName? = some n ↔ ∃ d : List String, p.parts = d ++ [n] := by
  simp only [fileName?, List.getLast?_eq_some_iff]

theorem split?_eq_some_iff {p d : Path} {n : String} :
    p.split? = some (d, n) ↔ p.parts = d.parts ++ [n] := by
  unfold split?
  constructor
  · intro h
    split at h
    · rename_i q m hq hm
      cases h
      obtain ⟨k, hk⟩ := parent?_eq_some_iff.1 hq
      obtain ⟨e, he⟩ := fileName?_eq_some_iff.1 hm
      rw [hk] at he
      have := (List.append_inj' he rfl).2
      simp only [List.cons.injEq, and_true] at this
      rw [hk, this]
    · cases h
  · intro h
    have hq : p.parent? = some d := parent?_eq_some_iff.2 ⟨n, h⟩
    have hm : p.fileName? = some n := fileName?_eq_some_iff.2 ⟨d.parts, h⟩
    simp [hq, hm]

theorem isComponentName_of_split? {p d : Path} {n : String} (h : p.split? = some (d, n)) :
    isComponentName n = true :=
  p.valid n (by simp [split?_eq_some_iff.1 h])

theorem split?_join (d : Path) {n : String} (h : isComponentName n = true) :
    (d.join n).split? = some (d, n) :=
  split?_eq_some_iff.2 (join_parts d h)

theorem join_of_split? {p d : Path} {n : String} (h : p.split? = some (d, n)) : d.join n = p :=
  ext_parts (by rw [join_parts d (isComponentName_of_split? h), split?_eq_some_iff.1 h])

theorem parent?_join (d : Path) {n : String} (h : isComponentName n = true) :
    (d.join n).parent? = some d :=
  parent?_eq_some_iff.2 ⟨n, join_parts d h⟩

theorem fileName?_join (d : Path) {n : String} (h : isComponentName n = true) :
    (d.join n).fileName? = some n :=
  fileName?_eq_some_iff.2 ⟨d.parts, join_parts d h⟩

theorem isComponentName_of_fileName? {p : Path} {n : String} (h : p.fileName? = some n) :
    isComponentName n = true := by
  obtain ⟨d, hd⟩ := fileName?_eq_some_iff.1 h
  exact p.valid n (by simp [hd])

theorem split?_of_parent? {p d : Path} (h : p.parent? = some d) :
    ∃ n, p.split? = some (d, n) := by
  obtain ⟨n, hn⟩ := parent?_eq_some_iff.1 h
  exact ⟨n, split?_eq_some_iff.2 hn⟩

theorem parent?_root : root.parent? = none := rfl

theorem parent?_ne_none {p : Path} (h : p ≠ root) : p.parent? ≠ none := by
  unfold parent?
  rw [if_neg]
  · simp
  · intro he
    exact h (ext_parts (by simpa using he))

theorem eq_root_of_parent? {p : Path} (h : p.parent? = none) : p = root :=
  Classical.byContradiction fun hne => parent?_ne_none hne h

theorem isRoot_iff {p : Path} : p.isRoot = true ↔ p = root := by
  constructor
  · intro h
    exact ext_parts (by simpa [isRoot] using h)
  · rintro rfl; rfl

theorem isBelow_iff {p a : Path} : p.isBelow a = true ↔ a.parts <+: p.parts ∧ p ≠ a := by
  simp [isBelow, List.isPrefixOf_iff_prefix, and_comm]

theorem isBelow_root {p : Path} (h : p ≠ root) : p.isBelow root = true :=
  isBelow_iff.2 ⟨List.nil_prefix, h⟩

theorem reroot_parts (p src dst : Path) :
    (p.reroot src dst).parts = dst.parts ++ p.parts.drop src.parts.length := rfl

/-- Below `src`, `reroot` swaps the prefix `src` for `dst`. -/
theorem reroot_append {p src : Path} (dst : Path) (h : src.parts <+: p.parts) :
    ∃ rest, p.parts = src.parts ++ rest ∧ (p.reroot src dst).parts = dst.parts ++ rest := by
  obtain ⟨rest, hr⟩ := h
  refine ⟨rest, hr.symm, ?_⟩
  simp [reroot_parts, ← hr]

@[simp] theorem reroot_self (src dst : Path) : src.reroot src dst = dst :=
  ext_parts (by simp [reroot_parts])

/-- A child of `src` moved below `dst` is `dst` joined with the child's name. -/
theorem join_fileName?_of_parent? {q src : Path} (h : q.parent? = some src) (dst : Path) :
    q.fileName?.map dst.join = some (q.reroot src dst) := by
  obtain ⟨n, hn⟩ := parent?_eq_some_iff.1 h
  have hc : isComponentName n = true := q.valid n (by simp [hn])
  have hf : q.fileName? = some n := fileName?_eq_some_iff.2 ⟨src.parts, hn⟩
  rw [hf, Option.map_some]
  congr 1
  apply ext_parts
  rw [join_parts dst hc, reroot_parts, hn, List.drop_left]

/-- Strictly below the old root, rerooting keeps the last component. -/
theorem fileName?_reroot {p src : Path} (dst : Path) (h : p.isBelow src = true) :
    (p.reroot src dst).fileName? = p.fileName? := by
  obtain ⟨hpre, hne⟩ := isBelow_iff.1 h
  obtain ⟨rest, hp, hr⟩ := reroot_append dst hpre
  have hrest : rest ≠ [] := by
    rintro rfl
    exact hne (ext_parts (by simpa using hp))
  obtain ⟨x, hx⟩ := Option.isSome_iff_exists.1 (List.getLast?_isSome.2 hrest)
  simp only [fileName?, hr, hp, List.getLast?_append, hx]
  rfl

/-! ### Paths as text -/

/-- Component names pushed onto a stack land on it in order, nearest first. -/
theorem pushAll_of_components (stack : List String) {rest : List String}
    (h : ∀ c ∈ rest, isComponentName c = true) : pushAll stack rest = rest.reverse ++ stack := by
  induction rest generalizing stack with
  | nil => rfl
  | cons c rest ih =>
    simp only [List.mem_cons, forall_eq_or_imp] at h
    simp only [pushAll, List.foldl_cons] at ih ⊢
    rw [push_of_isComponentName _ h.1, ih _ h.2]
    simp

/-- Joining a text that is a slash and then components separated by slashes appends those
components. -/
theorem join_slash_intercalate (d : Path) {rest : List String}
    (h : ∀ c ∈ rest, isComponentName c = true) (hne : rest ≠ []) :
    (d.join ("/" ++ "/".intercalate rest)).parts = d.parts ++ rest := by
  have hslash : ∀ l ∈ rest.map String.toList, '/' ∉ l := by
    intro l hl
    obtain ⟨c, hc, rfl⟩ := List.mem_map.1 hl
    have := h c hc
    simp only [isComponentName, Bool.and_eq_true, Bool.not_eq_eq_eq_not, Bool.not_true] at this
    simpa using this.2
  have hseg : segments ("/" ++ "/".intercalate rest) = "" :: rest := by
    have hlead := List.splitOn_append_cons_self_of_not_mem (List.not_mem_nil : '/' ∉ ([] : List Char))
      (['/'].intercalate (rest.map String.toList))
    rw [List.nil_append] at hlead
    have hone : "/".toList = ['/'] := rfl
    unfold segments
    rw [String.toList_append, String.toList_intercalate, hone, List.singleton_append, hlead,
      List.splitOn_intercalate '/' hslash (by simpa using hne)]
    simp
  have hpush : push d.parts.reverse "" = d.parts.reverse := by
    simp [push, isComponentName]
  simp only [join, descend, hseg, pushAll, List.foldl_cons, hpush]
  rw [← pushAll, pushAll_of_components _ h]
  simp

/-- The text of a path strictly below a folder other than the root is the folder's text, a
slash and the rest; so the rest starts on a character boundary at the folder text's length, and
joining the slash and the rest under `dst` reroots the path there. -/
theorem asStr_of_isBelow {q src : Path} (hq : q.isBelow src = true) (hs : src ≠ root)
    (dst : Path) :
    ∃ tail, q.asStr = src.asStr ++ "/" ++ tail ∧ dst.join ("/" ++ tail) = q.reroot src dst := by
  obtain ⟨hpre, hne⟩ := isBelow_iff.1 hq
  obtain ⟨rest, hp, hr⟩ := reroot_append dst hpre
  have hrest : rest ≠ [] := by
    rintro rfl
    exact hne (ext_parts (by simpa using hp))
  have hsrc : src.parts ≠ [] := fun h => hs (ext_parts (by simpa using h))
  refine ⟨"/".intercalate rest, ?_, ext_parts ?_⟩
  · rw [asStr, asStr, hp, String.intercalate_append_of_ne_nil hsrc hrest]
  · rw [hr, join_slash_intercalate dst (fun c hc => q.valid c (by rw [hp]; simp [hc])) hrest]

end FrontCache.Path
