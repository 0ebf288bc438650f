import EarnProxy.ProxyHosts

/-!
# Reading the text of an address

`ip_address(str(address))` is the address again: the hextets that `compressed` writes are read back,
and the gap it leaves is filled with as many zeros as it has left out.
-/

namespace EarnProxy

theorem mapM_of_forall {α β : Type} {f : α → Option β} {g : α → β} {xs : List α}
    (h : ∀ x ∈ xs, f x = some (g x)) : xs.mapM f = some (xs.map g) := by
  induction xs with
  | nil => rfl
  | cons x xs ih =>
    rw [List.mapM_cons, h x List.mem_cons_self, ih fun y hy => h y (List.mem_cons_of_mem _ hy)]
    rfl

theorem mapM_id_map_some {α : Type} (xs : List α) : (xs.map some).mapM id = some xs := by
  induction xs with
  | nil => rfl
  | cons x xs ih =>
    rw [List.map_cons, List.mapM_cons, ih]
    rfl

/-- What was read part by part can be written again. -/
theorem eq_map_of_mapM {α β : Type} {f : α → Option β} {g : β → α} {P : β → Prop}
    (hf : ∀ x y, f x = some y → P y ∧ x = g y) {xs : List α} {ys : List β}
    (h : xs.mapM f = some ys) : (∀ y ∈ ys, P y) ∧ xs = ys.map g := by
  induction xs generalizing ys with
  | nil =>
    obtain rfl := Option.some.inj h
    exact ⟨by simp, rfl⟩
  | cons x xs ih =>
    rw [List.mapM_cons] at h
    obtain ⟨y, hy, h⟩ := Option.bind_eq_some_iff.mp h
    obtain ⟨zs, hzs, h⟩ := Option.bind_eq_some_iff.mp h
    obtain rfl := Option.some.inj h
    obtain ⟨hP, hx⟩ := hf x y hy
    obtain ⟨hall, hxs⟩ := ih hzs
    exact ⟨List.forall_mem_cons.mpr ⟨hP, hall⟩, by rw [List.map_cons, ← hx, ← hxs]⟩

namespace IpAddress

/-- Hextets with colons between them. -/
def joined (A : List Nat) : List Char := [':'].intercalate (A.map (Nat.toDigits 16))

/-- The text of an IPv6 address has all hextets, or leaves some zeros out. -/
theorem textV6_eq (n : Nat) : textV6 n = joined (hextets n) ∨
    ∃ A B zeros, 2 ≤ zeros ∧ hextets n = A ++ List.replicate zeros 0 ++ B ∧
      textV6 n = joined A ++ [':', ':'] ++ joined B := by
  have hzeros := longestRun_zeros (hextets n)
  unfold textV6
  dsimp only at hzeros ⊢
  split
  · rename_i hlong
    right
    generalize ((hextets n).zipIdx.foldl (fun run part => run.visit part.2 part.1) {} : ZeroRun) =
      run at hzeros hlong ⊢
    have hend : run.bestStart + run.bestLength ≤ (hextets n).length := by
      by_contra hover
      have hlast := hzeros (run.bestStart + run.bestLength - 1) (by omega) (by omega)
      rw [List.getElem?_eq_none (by omega)] at hlast
      cases hlast
    refine ⟨(hextets n).take run.bestStart, (hextets n).drop (run.bestStart + run.bestLength),
      run.bestLength, hlong, (eq_zeros hzeros hend).symm, ?_⟩
    rw [joined, joined, List.map_take, List.map_drop]
  · exact .inl rfl

theorem length_hextets (n : Nat) : (hextets n).length = 8 := by simp [hextets]

theorem hextets_lt {n m : Nat} (hm : m ∈ hextets n) : m < 65536 := by
  unfold hextets at hm
  obtain ⟨i, -, rfl⟩ := List.mem_map.mp hm
  exact Nat.mod_lt _ (by decide)

theorem joinHextets_hextets {n : Nat} (hn : n < 2 ^ 128) : joinHextets (hextets n) = n := by
  have height : List.range 8 = [0, 1, 2, 3, 4, 5, 6, 7] := by decide
  unfold joinHextets hextets
  rw [height]
  simp only [List.map_cons, List.map_nil, List.foldl_cons, List.foldl_nil, Nat.reduceSub,
    Nat.reducePow, pow_zero, Nat.div_one]
  omega

/-- The value of a part. -/
def partValue (part : List Char) : Option Nat := if part = [] then none else some (hexValue part)

theorem parseHextet_toDigits {m : Nat} (hm : m < 65536) :
    parseHextet (Nat.toDigits 16 m) = some m := by
  have hlength : (Nat.toDigits 16 m).length ≤ 4 :=
    (Nat.length_toDigits_le_iff (by decide) (by decide)).mpr hm
  have hvalue : ∀ cs : List Char, (∀ c ∈ cs, (hexDigit? c).isSome) → ∀ n,
      (cs.mapM hexDigit?).map (List.foldl (fun n d => 16 * n + d) n) =
        some (cs.foldl (fun n c => 16 * n + (hexDigit? c).getD 0) n) := by
    intro cs hcs n
    have hmapM : cs.mapM hexDigit? = some (cs.map fun c => (hexDigit? c).getD 0) := by
      refine mapM_of_forall fun c hc => ?_
      obtain ⟨d, hd⟩ := Option.isSome_iff_exists.mp (hcs c hc)
      rw [hd, Option.getD_some]
    rw [hmapM, Option.map_some, List.foldl_map]
  unfold parseHextet
  rw [if_neg (by simp [hlength]), hvalue _ (hexDigits m) 0]
  exact congrArg some (hexValue_toDigits m)

/-- Hextets and gaps are read one by one. -/
theorem v6Parts_eq {cs : List Char} (hlength : 3 ≤ (cs.splitOn ':').length)
    (hparts : ∀ part ∈ cs.splitOn ':', part = [] ∨ ∃ m < 65536, part = Nat.toDigits 16 m) :
    v6Parts cs = some ((cs.splitOn ':').map partValue) := by
  have hne : cs.splitOn ':' ≠ [] := by
    intro hnil
    rw [hnil] at hlength
    cases hlength
  obtain ⟨last, hlast⟩ := Option.ne_none_iff_exists'.mp (mt List.getLast?_eq_none_iff.mp hne)
  have hdot : '.' ∉ last := by
    rcases hparts last (List.mem_of_getLast? hlast) with rfl | ⟨m, -, rfl⟩
    · simp
    · exact fun hdot => (toDigits_chars (by decide) le_rfl m '.' hdot).2.2 rfl
  unfold v6Parts
  simp only [hlast]
  rw [if_neg (by omega), if_neg hdot]
  refine mapM_of_forall fun part hpart => ?_
  unfold partValue
  rcases hparts part hpart with rfl | ⟨m, hm, rfl⟩
  · rfl
  · rw [if_neg Nat.toDigits_ne_nil, if_neg Nat.toDigits_ne_nil, parseHextet_toDigits hm,
      hexValue_toDigits]
    rfl

/-- All eight hextets are there. -/
theorem parseV6_full {cs : List Char} {A : List Nat} (hlength : A.length = 8)
    (hparts : v6Parts cs = some (A.map some)) : parseV6 cs = some (joinHextets A) := by
  have hinner : ((List.range (A.map some).length).filter fun i =>
      decide (1 ≤ i ∧ i + 1 < (A.map some).length ∧ (A.map some)[i]? = some none)) = [] := by
    refine List.filter_eq_nil_iff.mpr fun i _ => ?_
    simp
  unfold parseV6
  rw [hparts, Option.bind_eq_bind, Option.bind_some]
  rw [if_neg (by rw [List.length_map]; omega)]
  dsimp only
  rw [hinner]
  dsimp only
  rw [if_neg (by rw [List.length_map]; omega), mapM_id_map_some]
  rfl

/-- A side of the gap as its parts are read: no hextets are one empty part. -/
def side (A : List Nat) : List (Option Nat) := if A = [] then [none] else A.map some

theorem side_ne_nil (A : List Nat) : side A ≠ [] := by
  unfold side
  split_ifs with h
  · simp
  · simpa using h

theorem side_getElem? (A : List Nat) {i : Nat} (h : (side A)[i]? = some none) : A = [] ∧ i = 0 := by
  unfold side at h
  split_ifs at h with hnil
  · refine ⟨hnil, ?_⟩
    by_contra hi
    rw [List.getElem?_eq_none (by simp; omega)] at h
    cases h
  · simp at h

theorem length_side (A : List Nat) : (side A).length = max 1 A.length := by
  unfold side
  split_ifs with h
  · simp [h]
  · have := List.length_pos_of_ne_nil h
    rw [List.length_map]
    omega

theorem head?_side (A : List Nat) (rest : List (Option Nat)) :
    (side A ++ rest).head? = some none ↔ A = [] := by
  unfold side
  split_ifs with h
  · simp [h]
  · obtain ⟨a, A', rfl⟩ := List.exists_cons_of_ne_nil h
    simp

theorem getLast?_side (B : List Nat) (front : List (Option Nat)) :
    (front ++ none :: side B).getLast? = some none ↔ B = [] := by
  rw [List.getLast?_append_cons, List.getLast?_cons_of_ne_nil (side_ne_nil B)]
  unfold side
  split_ifs with h
  · simp [h]
  · simp [h]

/-- The gap is the only inner part that is empty. -/
theorem filter_gap (A B : List Nat) :
    ((List.range (side A ++ none :: side B).length).filter fun i =>
      decide (1 ≤ i ∧ i + 1 < (side A ++ none :: side B).length ∧
        (side A ++ none :: side B)[i]? = some none)) = [(side A).length] := by
  have hA := length_side A
  have hB := length_side B
  have htotal : (side A ++ none :: side B).length = (side A).length + 1 + (side B).length := by
    rw [List.length_append, List.length_cons]
    omega
  have hpick : ∀ i, (1 ≤ i ∧ i + 1 < (side A ++ none :: side B).length ∧
      (side A ++ none :: side B)[i]? = some none) ↔ i = (side A).length := by
    intro i
    constructor
    · rintro ⟨hfirst, hlast, hnone⟩
      rcases Nat.lt_trichotomy i (side A).length with hlt | heq | hgt
      · rw [List.getElem?_append_left hlt] at hnone
        have := (side_getElem? A hnone).2
        omega
      · exact heq
      · obtain ⟨k, rfl⟩ : ∃ k, i = (side A).length + (k + 1) := ⟨i - (side A).length - 1, by omega⟩
        rw [List.getElem?_append_right (by omega), Nat.add_sub_cancel_left,
          List.getElem?_cons_succ] at hnone
        obtain ⟨rfl, rfl⟩ := side_getElem? B hnone
        simp only [List.length_nil] at hB
        omega
    · rintro rfl
      refine ⟨by omega, by omega, ?_⟩
      rw [List.getElem?_append_right le_rfl, Nat.sub_self, List.getElem?_cons_zero]
  simp only [hpick]
  rw [List.filter_eq, List.count_eq_one_of_mem List.nodup_range (List.mem_range.mpr (by omega))]
  rfl

/-- Hextets on both sides of a gap. -/
theorem parseV6_gap {cs : List Char} {A B : List Nat} (hlength : A.length + B.length < 8)
    (hparts : v6Parts cs = some (side A ++ none :: side B)) :
    parseV6 cs =
      some (joinHextets (A ++ List.replicate (8 - (A.length + B.length)) 0 ++ B)) := by
  have hA := length_side A
  have hB := length_side B
  have htotal : (side A ++ none :: side B).length = (side A).length + 1 + (side B).length := by
    rw [List.length_append, List.length_cons]
    omega
  have hfront : (side A ++ none :: side B).take (side A).length = side A := List.take_left
  have hback : (side A ++ none :: side B).drop ((side A).length + 1) = side B := by
    rw [← List.drop_drop, List.drop_left]
    rfl
  have hleading : (if (side A ++ none :: side B).head? = some none then [] else side A) =
      A.map some := by
    by_cases h : A = []
    · rw [if_pos ((head?_side A _).mpr h), h, List.map_nil]
    · rw [if_neg (mt (head?_side A _).mp h), side, if_neg h]
  have htrailing : (if (side A ++ none :: side B).getLast? = some none then [] else side B) =
      B.map some := by
    by_cases h : B = []
    · rw [if_pos ((getLast?_side B _).mpr h), h, List.map_nil]
    · rw [if_neg (mt (getLast?_side B _).mp h), side, if_neg h]
  unfold parseV6
  rw [hparts, Option.bind_eq_bind, Option.bind_some, if_neg (by omega)]
  dsimp only
  rw [filter_gap]
  dsimp only
  rw [hfront, hback, hleading, htrailing, if_neg, if_neg, if_neg]
  · rw [mapM_id_map_some, mapM_id_map_some]
    rfl
  · simp only [List.length_map]
    omega
  · rintro ⟨h, hne⟩
    have hnil : B.length = 0 := List.length_eq_zero_iff.mpr ((getLast?_side B _).mp h)
    omega
  · rintro ⟨h, hne⟩
    have hnil : A.length = 0 := List.length_eq_zero_iff.mpr ((head?_side A _).mp h)
    omega

theorem splitOn_joined (A : List Nat) : ((joined A).splitOn ':').map partValue = side A := by
  unfold joined side
  rw [splitOn_join]
  split_ifs with h
  · rfl
  · rw [List.map_map]
    refine List.map_congr_left fun m _ => ?_
    simp [partValue, hexValue_toDigits]

theorem joined_parts {A : List Nat} (hA : ∀ m ∈ A, m < 65536) :
    ∀ part ∈ (joined A).splitOn ':', part = [] ∨ ∃ m < 65536, part = Nat.toDigits 16 m := by
  unfold joined
  rw [splitOn_join]
  split_ifs
  · simp
  · intro part hpart
    obtain ⟨m, hm, rfl⟩ := List.mem_map.mp hpart
    exact .inr ⟨m, hA m hm, rfl⟩

/-- The text of an IPv6 address is read back. -/
theorem parseV6_textV6 {n : Nat} (hn : n < 2 ^ 128) : parseV6 (textV6 n) = some n := by
  have hlength := length_hextets n
  have hsmall : ∀ m ∈ hextets n, m < 65536 := fun m hm => hextets_lt hm
  rcases textV6_eq n with hfull | ⟨A, B, zeros, hzeros, hsplit, hgap⟩
  · have hne : hextets n ≠ [] := fun h => by rw [h] at hlength; cases hlength
    have hparts : v6Parts (textV6 n) = some ((hextets n).map some) := by
      rw [hfull, v6Parts_eq, splitOn_joined, side, if_neg hne]
      · unfold joined
        rw [splitOn_join, if_neg hne, List.length_map]
        omega
      · exact joined_parts hsmall
    rw [parseV6_full hlength hparts, joinHextets_hextets hn]
  · have hsum : A.length + zeros + B.length = 8 := by
      rw [hsplit, List.length_append, List.length_append, List.length_replicate] at hlength
      exact hlength
    have hcut : (textV6 n).splitOn ':' =
        (joined A).splitOn ':' ++ [] :: (joined B).splitOn ':' := by
      rw [hgap, List.append_assoc, List.cons_append, List.cons_append, List.nil_append,
        List.splitOn_append_cons_self]
      rfl
    have hparts : v6Parts (textV6 n) = some (side A ++ none :: side B) := by
      rw [v6Parts_eq, hcut, List.map_append, List.map_cons, splitOn_joined, splitOn_joined]
      · rfl
      · rw [hcut, List.length_append, List.length_cons]
        have hA := List.length_pos_of_ne_nil (List.splitOn_ne_nil ':' (joined A))
        have hB := List.length_pos_of_ne_nil (List.splitOn_ne_nil ':' (joined B))
        omega
      · rw [hcut]
        intro part hpart
        rcases List.mem_append.mp hpart with h | h
        · exact joined_parts (fun m hm => hsmall m (by rw [hsplit]; simp [hm])) part h
        · rcases List.mem_cons.mp h with rfl | h
          · exact .inl rfl
          · exact joined_parts (fun m hm => hsmall m (by rw [hsplit]; simp [hm])) part h
    have hfill : 8 - (A.length + B.length) = zeros := by omega
    rw [parseV6_gap (by omega) hparts, hfill, ← hsplit, joinHextets_hextets hn]

/-! ## The text of an IPv4 address -/

theorem digitChar_of_isDecimal {c : Char} (h : isDecimal c) :
    c.toNat - '0'.toNat < 10 ∧ (c.toNat - '0'.toNat).digitChar = c := by
  have hall : ∀ d : Fin 10, (Char.ofNat (48 + d.val)).toNat - '0'.toNat = d.val ∧
      d.val.digitChar = Char.ofNat (48 + d.val) := by decide
  simp only [isDecimal, Bool.and_eq_true, decide_eq_true_eq, Char.le_def,
    UInt32.le_iff_toNat_le] at h
  have hlow : 48 ≤ c.toNat := h.1
  have hhigh : c.toNat ≤ 57 := h.2
  have hzero : '0'.toNat = 48 := rfl
  have hd := (hall ⟨c.toNat - 48, by omega⟩).2
  have hplus : 48 + (c.toNat - 48) = c.toNat := by omega
  rw [hplus, Char.ofNat_toNat] at hd
  exact ⟨by omega, hd⟩

/-- A number without a zero in front is written the way it is read. -/
theorem toDigits_decimalValue {cs : List Char} (hcs : cs ≠ []) (hdigits : ∀ c ∈ cs, isDecimal c)
    (hzero : cs.head? ≠ some '0') :
    0 < Swap.decimalValue cs ∧ Nat.toDigits 10 (Swap.decimalValue cs) = cs := by
  induction cs using List.reverseRecOn with
  | nil => exact absurd rfl hcs
  | append_singleton front c ih =>
    have hc := digitChar_of_isDecimal (hdigits c (by simp))
    have hvalue : Swap.decimalValue (front ++ [c]) =
        10 * Swap.decimalValue front + (c.toNat - '0'.toNat) := by
      unfold Swap.decimalValue
      rw [List.foldl_append]
      rfl
    rw [hvalue]
    by_cases hfront : front = []
    · subst hfront
      have hpos : c.toNat - '0'.toNat ≠ 0 := by
        intro h
        rw [h] at hc
        exact hzero (by rw [← hc.2]; rfl)
      have hnil : Swap.decimalValue [] = 0 := rfl
      rw [hnil, Nat.mul_zero, Nat.zero_add, Nat.toDigits_of_lt_base hc.1, hc.2]
      exact ⟨by omega, rfl⟩
    · have hhead : (front ++ [c]).head? = front.head? := List.head?_append_of_ne_nil _ hfront
      obtain ⟨hpos, hfrontDigits⟩ :=
        ih hfront (fun d hd => hdigits d (by simp [hd])) (hhead ▸ hzero)
      refine ⟨by omega, ?_⟩
      rw [← Nat.toDigits_append_toDigits (by decide) hpos hc.1, hfrontDigits,
        Nat.toDigits_of_lt_base hc.1, hc.2]

theorem eq_of_parseOctet {cs : List Char} {n : Nat} (h : parseOctet cs = some n) :
    n < 256 ∧ cs = Nat.toDigits 10 n := by
  unfold parseOctet at h
  dsimp only at h
  split_ifs at h with hbad hzero hbig
  obtain rfl := Option.some.inj h
  obtain ⟨hne, hrest⟩ := not_or.mp hbad
  have hdigits : ∀ c ∈ cs, isDecimal c := by simpa using (not_or.mp hrest).1
  refine ⟨by omega, ?_⟩
  by_cases hsingle : cs = ['0']
  · rw [hsingle]
    rfl
  · exact (toDigits_decimalValue hne hdigits fun hhead => hzero ⟨hsingle, hhead⟩).2.symm

/-- What is read as an IPv4 address is the text of that address. -/
theorem eq_textV4_of_parseV4 {cs : List Char} {n : Nat} (h : parseV4 cs = some n) :
    n < 2 ^ 32 ∧ cs = textV4 n := by
  unfold parseV4 at h
  split at h
  swap
  · cases h
  rename_i a b c d hoctets
  obtain rfl := Option.some.inj h
  obtain ⟨hsmall, hparts⟩ := eq_map_of_mapM (fun _ _ => eq_of_parseOctet) hoctets
  simp only [List.forall_mem_cons, List.not_mem_nil, false_implies, implies_true,
    and_true] at hsmall
  obtain ⟨ha, hb, hc, hd⟩ := hsmall
  refine ⟨by omega, ?_⟩
  have hcs : ['.'].intercalate (cs.splitOn '.') = cs := List.intercalate_splitOn '.'
  have hfirst : (((a * 256 + b) * 256 + c) * 256 + d) / 16777216 % 256 = a := by omega
  have hsecond : (((a * 256 + b) * 256 + c) * 256 + d) / 65536 % 256 = b := by omega
  have hthird : (((a * 256 + b) * 256 + c) * 256 + d) / 256 % 256 = c := by omega
  have hfourth : (((a * 256 + b) * 256 + c) * 256 + d) % 256 = d := by omega
  rw [← hcs, hparts, textV4]
  simp only [List.map_cons, List.map_nil, hfirst, hsecond, hthird, hfourth]

end IpAddress

/-- A text with a colon is no IPv4 address. -/
theorem IpAddress.parseV4_eq_none {cs : List Char} (hcolon : ':' ∈ cs) : parseV4 cs = none := by
  by_contra h
  obtain ⟨n, hn⟩ := Option.ne_none_iff_exists'.mp h
  rcases parseV4_chars hn hcolon with h | h
  · cases h
  · exact absurd h (by decide)

namespace IpAddress

/-- A scope that can be read. -/
def ScopeOk (scope : Option String) : Prop :=
  ∀ zone ∈ scope, zone.toList ≠ [] ∧ '%' ∉ zone.toList ∧ '/' ∉ zone.toList

theorem compressed_v6 (value : BitVec 128) (scope : Option String) :
    (IpAddress.v6 value scope).compressed.toList = textV6 value.toNat ++ scopeText scope := by
  cases scope <;> simp [compressed, scopeText]

theorem scopeOk_of_split {cs front : List Char} {scope : Option String}
    (h : splitScope cs = some (front, scope)) (hslash : '/' ∉ cs) : ScopeOk scope := by
  have hcs := splitScope_eq h
  rintro zone (rfl : scope = some zone)
  rw [scopeText] at hcs
  unfold splitScope at h
  dsimp only at h
  split at h
  · cases (Prod.mk.inj (Option.some.inj h)).2
  · split_ifs at h with hzone
    obtain ⟨-, hrest⟩ := Prod.mk.inj (Option.some.inj h)
    obtain ⟨hne, hpercent⟩ := not_or.mp hzone
    obtain rfl := Option.some.inj hrest
    rw [String.toList_ofList] at hcs ⊢
    exact ⟨hne, hpercent, fun hmem => hslash (hcs ▸ by simp [hmem])⟩

theorem splitScope_append {front : List Char} (hfront : '%' ∉ front) {scope : Option String}
    (hscope : ScopeOk scope) : splitScope (front ++ scopeText scope) = some (front, scope) := by
  have hall : ∀ c ∈ front, decide (c ≠ '%') = true := fun c hc =>
    decide_eq_true fun h => hfront (h ▸ hc)
  unfold splitScope
  rw [List.takeWhile_append_of_pos hall, List.dropWhile_append_of_pos hall]
  cases scope with
  | none => simp [scopeText]
  | some zone =>
    obtain ⟨hne, hpercent, -⟩ := hscope zone rfl
    have htake : (scopeText (some zone)).takeWhile (· ≠ '%') = [] := by simp [scopeText]
    have hdrop : (scopeText (some zone)).dropWhile (· ≠ '%') = '%' :: zone.toList := by
      simp [scopeText]
    rw [htake, hdrop, List.append_nil]
    dsimp only
    rw [if_neg (not_or.mpr ⟨hne, hpercent⟩), String.ofList_toList]

end IpAddress

/-- An IPv6 address is read with its scope. -/
theorem ipAddress_v6 {front : List Char} {n : Nat} (hn : IpAddress.parseV6 front = some n)
    (hpercent : '%' ∉ front) (hslash : '/' ∉ front) {scope : Option String}
    (hscope : IpAddress.ScopeOk scope) :
    ipAddress (String.ofList (front ++ IpAddress.scopeText scope)) =
      some (.v6 (BitVec.ofNat 128 n) scope) := by
  obtain ⟨parts, hparts, -⟩ := Option.bind_eq_some_iff.mp hn
  have hcolon := IpAddress.colon_mem_of_v6Parts hparts
  have hslash' : '/' ∉ front ++ IpAddress.scopeText scope := by
    rw [List.mem_append, not_or]
    refine ⟨hslash, ?_⟩
    cases scope with
    | none => simp [IpAddress.scopeText]
    | some zone => simpa [IpAddress.scopeText] using (hscope zone rfl).2.2
  unfold ipAddress
  rw [String.toList_ofList]
  dsimp only
  rw [IpAddress.parseV4_eq_none (List.mem_append_left _ hcolon)]
  dsimp only
  rw [if_neg hslash', IpAddress.splitScope_append hpercent hscope]
  simp only [Option.bind_eq_bind, Option.bind_some, hn]
  rfl

theorem ipAddress_v4 (value : BitVec 32) :
    ipAddress (IpAddress.v4 value).compressed = some (.v4 value) := by
  unfold ipAddress
  rw [IpAddress.compressed, String.toList_ofList]
  dsimp only
  rw [IpAddress.parseV4_textV4 value.isLt]
  dsimp only
  rw [BitVec.ofNat_toNat, BitVec.setWidth_eq]

/-- What `ip_address` has read, it reads from its text again. -/
theorem ipAddress_compressed {text : String} {address : IpAddress}
    (h : ipAddress text = some address) : ipAddress address.compressed = some address := by
  cases address with
  | v4 value => exact ipAddress_v4 value
  | v6 value scope =>
    -- the scope was read behind the address, and is written there
    unfold ipAddress at h
    dsimp only at h
    split at h
    · cases h
    split_ifs at h with hslash
    obtain ⟨⟨front, scope'⟩, hscope, h⟩ := Option.bind_eq_some_iff.mp h
    obtain ⟨n, -, h⟩ := Option.bind_eq_some_iff.mp h
    obtain ⟨-, rfl⟩ := IpAddress.v6.inj (Option.some.inj h)
    have hslash' : '/' ∉ IpAddress.textV6 value.toNat := by
      intro hmem
      rcases IpAddress.textV6_digits hmem with h | h
      · cases h
      · exact absurd h (by decide)
    have hread := ipAddress_v6 (IpAddress.parseV6_textV6 value.isLt)
      (IpAddress.textV6_chars value.toNat).2 hslash' (IpAddress.scopeOk_of_split hscope hslash)
    rwa [← IpAddress.compressed_v6, String.ofList_toList, BitVec.ofNat_toNat,
      BitVec.setWidth_eq] at hread

end EarnProxy
