import EarnProxy.ProxyLine

/-!
# `str.lower`

The characters beyond ASCII change their case by tables of the Unicode release, and a final sigma by
the letters around it. What the services rely on are the laws of `LowerCase`, and `Text.lowerChar`,
which keeps such characters, has them.
-/

namespace EarnProxy.Text

theorem lower_lower (cs : List Char) :
    (cs.flatMap lowerChar).flatMap lowerChar = cs.flatMap lowerChar := by
  refine lower_eq_self fun d hd => ?_
  obtain ⟨c, -, hc⟩ := List.mem_flatMap.mp hd
  exact lowerChar_of_mem hc

/-- A character whose lower case is ASCII is ASCII itself, or the Kelvin sign. -/
theorem ascii_of_lowerChar {c : Char} (h : ∀ d ∈ lowerChar c, d.toNat < 128) :
    c.toNat < 128 ∨ c.toNat = 0x212A := by
  unfold lowerChar at h
  split at h
  · exact absurd (h _ (by simp)) (by decide : ¬ (Char.ofNat 0x307).toNat < 128)
  · exact .inr ‹_›
  · left
    have hlow := h c.toLower (by simp)
    unfold Char.toLower at hlow
    split at hlow
    · rename_i hupper
      have hZ : c.toNat ≤ 90 := hupper.2
      omega
    · exact hlow

theorem lowerChar_of_ascii {c : Char} (h : c.toNat < 128) : lowerChar c = [c.toLower] := by
  unfold lowerChar
  split
  · omega
  · omega
  · rfl

/-- Blanks have no case. -/
theorem lowerChar_of_isSpace {c : Char} (h : isSpace c) : lowerChar c = [c] := by
  obtain ⟨r, hr, hlow, hhigh⟩ := exists_spaceRange h
  have hranges : ∀ r ∈ spaceRanges, r.2 < 65 ∨ 90 < r.1 ∧ r.2 < 0x130 ∨
      0x130 < r.1 ∧ r.2 < 0x212A ∨ 0x212A < r.1 := by decide
  have hr := hranges r hr
  unfold lowerChar
  split
  · omega
  · omega
  · congr 1
    unfold Char.toLower
    refine dif_neg fun hupper => ?_
    have : 65 ≤ c.toNat ∧ c.toNat ≤ 90 := hupper
    omega

theorem lowerChar_ne_nil (c : Char) : lowerChar c ≠ [] := by
  unfold lowerChar
  split <;> simp

/-- No letter of ASCII, in a text in lower case. -/
theorem eq_of_mem_lowerChar {c d : Char} (hascii : c.toNat < 128) (hletter : ¬ c.isAlpha)
    (h : c ∈ lowerChar d) : c = d := by
  unfold lowerChar at h
  split at h
  · simp only [List.mem_cons, List.not_mem_nil, or_false] at h
    rcases h with rfl | rfl
    · exact absurd (by decide) hletter
    · exact absurd hascii (by decide)
  · rw [List.mem_singleton.mp h] at hletter
    exact absurd (by decide) hletter
  · rw [List.mem_singleton] at h
    unfold Char.toLower at h
    split at h
    · rename_i hupper
      refine absurd ?_ hletter
      have hA : 65 ≤ d.val.toNat := hupper.1
      have hZ : d.val.toNat ≤ 90 := hupper.2
      have hoffset : ('a'.val - 'A'.val).toNat = 32 := rfl
      have hvalue : c.toNat = d.val.toNat + 32 := by
        rw [h]
        change (d.val + ('a'.val - 'A'.val)).toNat = _
        rw [UInt32.toNat_add, hoffset]
        omega
      rw [isAlpha_iff, isLower_iff]
      omega
    · exact h

/-- What is known of `str.lower`. -/
structure LowerCase where
  lower : List Char → List Char
  /-- The characters that are left alone. -/
  Stable : Char → Prop
  lower_ascii : ∀ cs, (∀ c ∈ cs, c.toNat < 128) → lower cs = cs.map Char.toLower
  stable_ascii : ∀ c, c.toNat < 128 → ¬ c.isUpper → Stable c
  stable_lower : ∀ cs, ∀ c ∈ lower cs, Stable c
  lower_stable : ∀ cs, (∀ c ∈ cs, Stable c) → lower cs = cs
  /-- Characters of ASCII that are no letters are not the lower case of others. -/
  mem_lower : ∀ cs c, c.toNat < 128 → ¬ c.isAlpha → (c ∈ lower cs ↔ c ∈ cs)
  /-- Blanks keep the letters on their sides apart. -/
  lower_space :
    ∀ front c rest, isSpace c → lower (front ++ c :: rest) = lower front ++ c :: lower rest
  trimmed_lower : ∀ cs, Trimmed cs → Trimmed (lower cs)

theorem isSpace_of_mem_lowerChar {c d : Char} (hd : d ∈ lowerChar c) (hspace : isSpace d) :
    isSpace c := by
  unfold lowerChar at hd
  split at hd
  · simp only [List.mem_cons, List.not_mem_nil, or_false] at hd
    rcases hd with rfl | rfl <;> exact absurd hspace (by decide)
  · rw [List.mem_singleton.mp hd] at hspace
    exact absurd hspace (by decide)
  · rw [List.mem_singleton] at hd
    unfold Char.toLower at hd
    split at hd
    · rename_i hupper
      have hA : 65 ≤ c.val.toNat := hupper.1
      have hZ : c.val.toNat ≤ 90 := hupper.2
      have hoffset : ('a'.val - 'A'.val).toNat = 32 := rfl
      have hvalue : d.toNat = c.val.toNat + 32 := by
        rw [hd]
        change (c.val + ('a'.val - 'A'.val)).toNat = _
        rw [UInt32.toNat_add, hoffset]
        omega
      obtain ⟨r, hr, hlow, hhigh⟩ := exists_spaceRange hspace
      have hranges : ∀ r ∈ spaceRanges, r.2 < 97 ∨ 122 < r.1 := by decide
      have := hranges r hr
      omega
    · exact hd ▸ hspace

/-- The lower case that keeps what is not ASCII. -/
def lowering : LowerCase where
  lower := List.flatMap lowerChar
  Stable := fun c => lowerChar c = [c]
  lower_ascii := by
    intro cs hcs
    induction cs with
    | nil => rfl
    | cons c cs ih =>
      obtain ⟨hc, hcs⟩ := List.forall_mem_cons.mp hcs
      rw [List.flatMap_cons, lowerChar_of_ascii hc, ih hcs]
      rfl
  stable_ascii := by
    intro c hascii hupper
    rw [lowerChar_of_ascii hascii]
    congr 1
    unfold Char.toLower
    exact dif_neg fun h => hupper (isUpper_iff.mpr h)
  stable_lower := by
    intro cs d hd
    obtain ⟨c, -, hc⟩ := List.mem_flatMap.mp hd
    exact lowerChar_of_mem hc
  lower_stable := fun cs h => lower_eq_self h
  mem_lower := by
    intro cs c hascii hletter
    constructor
    · intro hc
      obtain ⟨d, hd, hcd⟩ := List.mem_flatMap.mp hc
      rwa [eq_of_mem_lowerChar hascii hletter hcd]
    · intro hc
      refine List.mem_flatMap.mpr ⟨c, hc, ?_⟩
      have hlow : c.toLower = c := by
        unfold Char.toLower
        rw [dif_neg]
        exact fun h => hletter (isAlpha_iff.mpr (.inl (isUpper_iff.mpr h)))
      rw [lowerChar_of_ascii hascii, hlow]
      exact List.mem_singleton_self c
  lower_space := by
    intro front c rest hspace
    rw [List.flatMap_append, List.flatMap_cons, lowerChar_of_isSpace hspace]
    rfl
  trimmed_lower := by
    intro cs h
    constructor
    · intro d hd
      cases cs with
      | nil => cases hd
      | cons c cs =>
        rw [List.flatMap_cons, List.head?_append_of_ne_nil _ (lowerChar_ne_nil c)] at hd
        by_contra hspace
        have hc := isSpace_of_mem_lowerChar (List.mem_of_mem_head? hd) (by simpa using hspace)
        rw [h.head c rfl] at hc
        cases hc
    · intro d hd
      rcases List.eq_nil_or_concat cs with rfl | ⟨cs, c, rfl⟩
      · cases hd
      · rw [List.concat_eq_append] at h hd
        rw [List.flatMap_append, List.flatMap_singleton,
          List.getLast?_append_of_ne_nil _ (lowerChar_ne_nil c)] at hd
        by_contra hspace
        have hc := isSpace_of_mem_lowerChar (List.mem_of_getLast? hd) (by simpa using hspace)
        rw [h.getLast c (by simp)] at hc
        cases hc

end EarnProxy.Text
