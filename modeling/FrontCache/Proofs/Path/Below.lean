import FrontCache.Proofs.Path.Text
/-!
# Lying below a path

`isBelow q a` is the strict prefix order on components: `a`'s components are a proper prefix of
`q`'s. So it is irreflexive and transitive, every path but the root lies below the root, and a
path lies below `a` exactly when its folder is `a` or lies below `a` (`isBelow_iff_parent`).

As text, a path lies below a folder other than the root exactly when its absolute text is the
folder's, a slash and more (`isBelow_iff_display`). A text that extends the folder's text by
anything but a slash, as `/ab` extends `/a`, names no path below it.
-/
namespace FrontCache

namespace Path

theorem isBelow_iff_prefix_ne {q a : Path} :
    q.isBelow a = true ↔ a.parts <+: q.parts ∧ a.parts ≠ q.parts := by
  rw [isBelow_iff]
  exact and_congr_right fun _ => ⟨fun h he => h (ext_parts he.symm), fun h he => h (he ▸ rfl)⟩

/-- A proper prefix is a shorter prefix. -/
theorem isBelow_iff_prefix_shorter {q a : Path} :
    q.isBelow a = true ↔ a.parts <+: q.parts ∧ a.parts.length < q.parts.length := by
  rw [isBelow_iff_prefix_ne]
  exact and_congr_right fun hp => ⟨fun hne => Nat.lt_of_le_of_ne hp.length_le
    fun he => hne (hp.eq_of_length he), fun hlt he => by rw [he] at hlt; omega⟩

@[simp] theorem isBelow_self (q : Path) : q.isBelow q = false := by
  simp [isBelow]

theorem isBelow_trans {q a b : Path} (hqa : q.isBelow a = true) (hab : a.isBelow b = true) :
    q.isBelow b = true := by
  obtain ⟨hqa, hlt⟩ := isBelow_iff_prefix_shorter.1 hqa
  obtain ⟨hab, hlt'⟩ := isBelow_iff_prefix_shorter.1 hab
  exact isBelow_iff_prefix_shorter.2 ⟨hab.trans hqa, by omega⟩

theorem isBelow_root_iff {q : Path} : q.isBelow root = true ↔ q ≠ root :=
  ⟨Store.ne_root_of_isBelow, isBelow_root⟩

/-- Lying below `a` is having `a`, or a path below `a`, as folder. -/
theorem isBelow_iff_parent {q a : Path} :
    q.isBelow a = true ↔ ∃ d, q.parent? = some d ∧ (d = a ∨ d.isBelow a = true) := by
  constructor
  · intro h
    obtain ⟨d, n, hs⟩ := Store.exists_split?_of_ne_root (Store.ne_root_of_isBelow h)
    exact ⟨d, parent?_of_split? hs, Store.parent_eq_or_isBelow h hs⟩
  · rintro ⟨d, hd, rfl | hda⟩
    · obtain ⟨n, hs⟩ := split?_of_parent? hd
      exact Store.isBelow_of_split? hs
    · obtain ⟨n, hs⟩ := split?_of_parent? hd
      exact isBelow_trans (Store.isBelow_of_split? hs) hda

/-! ### Below, as text -/

/-- A slash between two texts splits them apart. -/
theorem segments_append_slash (x t : String) :
    segments (x ++ "/" ++ t) = segments x ++ segments t := by
  have h := List.splitOn_append_cons_self (a := '/') x.toList t.toList
  simp only [segments, String.toList_append, show "/".toList = ['/'] from rfl,
    List.append_assoc, List.singleton_append, h, List.map_append]

theorem segments_ne_nil (t : String) : segments t ≠ [] := by
  simp [segments, List.splitOn_ne_nil]

/-- A path whose text is a folder's text other than the root's, a slash and `t` has the
folder's components followed by the pieces of `t`. -/
theorem parts_of_asStr_eq {q a : Path} {t : String} (ha : a ≠ root)
    (h : q.asStr = a.asStr ++ "/" ++ t) : q.parts = a.parts ++ segments t := by
  have ha' : a.parts ≠ [] := fun he => ha (ext_parts he)
  have hs := congrArg segments h
  rw [segments_append_slash, segments_asStr, segments_asStr, if_neg ha'] at hs
  split at hs
  · have hl := congrArg List.length hs
    have h1 := List.length_pos_iff.2 ha'
    have h2 := List.length_pos_iff.2 (segments_ne_nil t)
    simp only [List.length_singleton, List.length_append] at hl
    omega
  · exact hs

/-- No path's text starts with a slash. -/
theorem asStr_ne_slash_append (q : Path) (t : String) : q.asStr ≠ "/" ++ t := by
  intro h
  have hs := congrArg segments h
  rw [segments_asStr, segments_slash_append] at hs
  split at hs
  · exact segments_ne_nil t (List.cons.inj hs).2.symm
  · have : isComponentName "" = true := q.valid "" (by rw [hs]; exact List.mem_cons_self)
    exact absurd this (by decide)

theorem display_eq_iff {q a : Path} {t : String} :
    q.display = a.display ++ "/" ++ t ↔ q.asStr = a.asStr ++ "/" ++ t := by
  simp only [display, String.append_assoc, String.append_right_inj]

/-- Below a folder other than the root, a path's absolute text is the folder's, a slash and
more; below the root, any path but the root. -/
theorem isBelow_iff_display {q a : Path} :
    q.isBelow a = true ↔ (a = root ∧ q ≠ root) ∨ ∃ t, q.display = a.display ++ "/" ++ t := by
  constructor
  · intro h
    by_cases ha : a = root
    · exact Or.inl ⟨ha, Store.ne_root_of_isBelow h⟩
    · obtain ⟨t, ht, -⟩ := asStr_of_isBelow h ha root
      exact Or.inr ⟨t, display_eq_iff.2 ht⟩
  · rintro (⟨rfl, hq⟩ | ⟨t, ht⟩)
    · exact isBelow_root hq
    · have ht := display_eq_iff.1 ht
      by_cases ha : a = root
      · subst ha
        exact absurd ht (by simpa [asStr] using asStr_ne_slash_append q t)
      · have hq := parts_of_asStr_eq ha ht
        refine isBelow_iff_prefix_ne.2 ⟨⟨segments t, hq.symm⟩, fun he => ?_⟩
        rw [hq, List.self_eq_append_right] at he
        exact segments_ne_nil t he

/-- A text that extends a folder's text by anything but a slash names no path below the folder;
the root is left out, as its text already ends in the slash. -/
theorem not_isBelow_of_display_extends {q a : Path} {t : String} (ha : a ≠ root)
    (h : q.display = a.display ++ t) (ht : ¬ t.startsWith "/" = true) : q.isBelow a = false := by
  rw [Bool.eq_false_iff]
  intro hb
  rcases isBelow_iff_display.1 hb with ⟨ha', -⟩ | ⟨t', ht'⟩
  · exact ha ha'
  · rw [h, String.append_assoc, String.append_right_inj] at ht'
    apply ht
    rw [ht', String.startsWith_string_iff, String.toList_append]
    exact List.prefix_append _ _

/-- Lying below is the strict prefix order on components: irreflexive and transitive, with
every path but the root below the root, and a path below `a` exactly when its folder is `a` or
below `a`. As text, a path below a folder other than the root is the folder's text, a slash and
more; a text that extends a folder's text otherwise is not below it. -/
theorem isBelow_strict_prefix_order :
    (∀ q a : Path, q.isBelow a = true ↔ a.parts <+: q.parts ∧ a.parts ≠ q.parts) ∧
    (∀ q : Path, q.isBelow q = false) ∧
    (∀ q a b : Path, q.isBelow a = true → a.isBelow b = true → q.isBelow b = true) ∧
    (∀ q : Path, q.isBelow root = true ↔ q ≠ root) ∧
    (∀ q a : Path, q.isBelow a = true ↔ ∃ d, q.parent? = some d ∧ (d = a ∨ d.isBelow a = true)) ∧
    (∀ q a : Path,
      q.isBelow a = true ↔ (a = root ∧ q ≠ root) ∨ ∃ t, q.display = a.display ++ "/" ++ t) ∧
    (∀ (q a : Path) (t : String), a ≠ root → q.display = a.display ++ t →
      ¬ t.startsWith "/" = true → q.isBelow a = false) :=
  ⟨fun _ _ => isBelow_iff_prefix_ne, isBelow_self, fun _ _ _ => isBelow_trans,
    fun _ => isBelow_root_iff, fun _ _ => isBelow_iff_parent, fun _ _ => isBelow_iff_display,
    fun _ _ _ => not_isBelow_of_display_extends⟩

/-- `/ab` extends the text of `/a` but is not below it, while `/a/b` is below `/a` and so below
the root. -/
theorem ab_not_below_a :
    let a := root.join "a"
    a ≠ root ∧ (root.join "ab").display = a.display ++ "b" ∧ ¬ "b".startsWith "/" = true ∧
      (root.join "ab").isBelow a = false ∧ (a.join "b").isBelow root = true := by
  intro a
  have hpa : a.parts = ["a"] := join_parts root (by cbv)
  have ha : a ≠ root := fun h => by simp [h] at hpa
  have hab : (root.join "ab").display = a.display ++ "b" := by
    simp only [display, asStr, join_parts root (show isComponentName "ab" = true by cbv), hpa,
      root_parts, List.nil_append]
    simp
  have hb : ¬ "b".startsWith "/" = true := by
    simp
  have hba : (a.join "b").isBelow a = true :=
    Store.isBelow_of_split? (split?_join a (by cbv))
  exact ⟨ha, hab, hb, isBelow_strict_prefix_order.2.2.2.2.2.2 _ a "b" ha hab hb,
    isBelow_strict_prefix_order.2.2.1 _ a root hba ((isBelow_strict_prefix_order.2.2.2.1 a).2 ha)⟩

end Path

end FrontCache
