import EarnProxy.Swap.Address

/-!
# Texts of addresses

`str` of an address is its compressed form. Two addresses with one text are the same address, so a
comparison of two columns that hold such texts compares the addresses.
-/

namespace EarnProxy

namespace IpAddress

/-! ## Numbers in a text -/

/-- The value of hexadecimal digits. -/
def hexValue (cs : List Char) : Nat :=
  cs.foldl (fun n c => 16 * n + (hexDigit? c).getD 0) 0

theorem hexDigit?_digitChar {d : Nat} (hd : d < 16) : hexDigit? d.digitChar = some d := by
  have hall : ∀ d : Fin 16, hexDigit? d.val.digitChar = some d.val := by decide
  exact hall ⟨d, hd⟩

theorem digitChar_ne {d : Nat} (hd : d < 16) :
    d.digitChar ≠ ':' ∧ d.digitChar ≠ '%' ∧ d.digitChar ≠ '.' := by
  have hall : ∀ d : Fin 16, d.val.digitChar ≠ ':' ∧ d.val.digitChar ≠ '%' ∧
      d.val.digitChar ≠ '.' := by
    decide
  exact hall ⟨d, hd⟩

theorem hexValue_toDigits (n : Nat) : hexValue (Nat.toDigits 16 n) = n := by
  induction n using Nat.strongRecOn with
  | _ n ih =>
    rw [Nat.toDigits_eq_if (by decide)]
    split
    · rename_i hlt
      simp [hexValue, hexDigit?_digitChar hlt]
    · rename_i hle
      have hlast : n % 16 < 16 := Nat.mod_lt n (by decide)
      have hfront : hexValue (Nat.toDigits 16 (n / 16)) = n / 16 := ih (n / 16) (by omega)
      unfold hexValue at hfront ⊢
      simp only [List.foldl_append, hfront, List.foldl_cons, List.foldl_nil,
        hexDigit?_digitChar hlast, Option.getD_some]
      omega

theorem toDigits_chars {b : Nat} (hb : 1 < b) (hb' : b ≤ 16) (n : Nat) :
    ∀ c ∈ Nat.toDigits b n, c ≠ ':' ∧ c ≠ '%' ∧ c ≠ '.' := by
  induction n using Nat.strongRecOn with
  | _ n ih =>
    rw [Nat.toDigits_eq_if hb]
    split
    · rename_i hlt
      simp [digitChar_ne (hlt.trans_le hb')]
    · rename_i hle
      intro c hc
      rcases List.mem_append.mp hc with hc | hc
      · exact ih (n / b) (Nat.div_lt_self (by omega) hb) c hc
      · obtain rfl := List.mem_singleton.mp hc
        exact digitChar_ne ((Nat.mod_lt n (by omega)).trans_le hb')

/-! ## IPv4 -/

theorem splitOn_textV4 (n : Nat) : (textV4 n).splitOn '.' =
    [n / 16777216, n / 65536, n / 256, n].map fun m => Nat.toDigits 10 (m % 256) := by
  refine List.splitOn_intercalate '.' ?_ (by simp)
  simp only [List.forall_mem_map]
  intro k _ hdot
  exact (toDigits_chars (by decide) (by decide) _ '.' hdot).2.2 rfl

theorem textV4_injective {m n : Nat} (hm : m < 2 ^ 32) (hn : n < 2 ^ 32)
    (h : textV4 m = textV4 n) : m = n := by
  have hoctets := congrArg (List.map fun cs => Nat.ofDigitChars 10 cs 0)
    ((splitOn_textV4 m).symm.trans ((congrArg (List.splitOn '.') h).trans (splitOn_textV4 n)))
  simp only [List.map_cons, List.map_nil, Nat.ofDigitChars_ten_toDigits, List.cons.injEq,
    and_true] at hoctets
  omega

theorem parseOctet_toDigits (m : Nat) :
    parseOctet (Nat.toDigits 10 (m % 256)) = some (m % 256) := by
  have hall : ∀ m : Fin 256, parseOctet (Nat.toDigits 10 m.val) = some m.val := by decide +kernel
  exact hall ⟨m % 256, Nat.mod_lt m (by decide)⟩

/-- The text of an IPv4 address is read back. -/
theorem parseV4_textV4 {n : Nat} (hn : n < 2 ^ 32) : parseV4 (textV4 n) = some n := by
  have hoctets : ((textV4 n).splitOn '.').mapM parseOctet =
      some [n / 16777216 % 256, n / 65536 % 256, n / 256 % 256, n % 256] := by
    rw [splitOn_textV4]
    simp only [List.map_cons, List.map_nil, List.mapM_cons, List.mapM_nil, parseOctet_toDigits]
    rfl
  unfold parseV4
  rw [hoctets]
  dsimp only
  congr 1
  omega

theorem textV4_chars (n : Nat) : ':' ∉ textV4 n := by
  unfold textV4
  simp only [List.map_cons, List.map_nil, List.intercalate_cons_cons, List.intercalate_singleton,
    List.mem_append, List.mem_singleton]
  have hdigits (m : Nat) : ':' ∉ Nat.toDigits 10 m := fun h =>
    (toDigits_chars (by decide) (by decide) m ':' h).1 rfl
  simp [hdigits]

/-! ## IPv6 -/

theorem hextets_injective {m n : Nat} (hm : m < 2 ^ 128) (hn : n < 2 ^ 128)
    (h : hextets m = hextets n) : m = n := by
  have hall : ∀ i < 8, m / 65536 ^ (7 - i) % 65536 = n / 65536 ^ (7 - i) % 65536 := by
    intro i hi
    have := congrArg (fun l => l[i]?) h
    simpa [hextets, hi] using this
  -- what is left of the hextet `j` agrees, from the highest one down
  have hleft : ∀ j ≤ 8, m / 65536 ^ (8 - j) = n / 65536 ^ (8 - j) := by
    intro j hj
    induction j with
    | zero =>
      have hpow : 65536 ^ 8 = 2 ^ 128 := by decide
      rw [Nat.sub_zero, hpow, Nat.div_eq_of_lt hm, Nat.div_eq_of_lt hn]
    | succ j ih =>
      have hhigh := ih (by omega)
      have hlow := hall j (by omega)
      have hshift (n : Nat) : n / 65536 ^ (8 - j) = n / 65536 ^ (7 - j) / 65536 := by
        rw [Nat.div_div_eq_div_mul, ← pow_succ]
        congr 2
        omega
      have hindex : 8 - (j + 1) = 7 - j := by omega
      rw [hshift, hshift] at hhigh
      rw [hindex]
      omega
  simpa using hleft 8 le_rfl

/-- The run of `length` places from `start` on is one of zeros. -/
def ZerosAt (all : List Nat) (start length : Nat) : Prop :=
  ∀ k, start ≤ k → k < start + length → all[k]? = some 0

/-- The two runs that the loop keeps, after the places before `index`. -/
structure ZeroRun.Sound (all : List Nat) (index : Nat) (run : ZeroRun) : Prop where
  zeros : ZerosAt all run.start run.length
  open_ : run.length ≠ 0 → run.start + run.length = index
  bestZeros : ZerosAt all run.bestStart run.bestLength

theorem ZeroRun.Sound.visit {all : List Nat} {index hextet : Nat} {run : ZeroRun}
    (h : run.Sound all index) (hhere : all[index]? = some hextet) :
    (run.visit index hextet).Sound all (index + 1) := by
  unfold ZeroRun.visit
  by_cases hzero : hextet = 0
  · subst hzero
    -- the open run with the place that is visited
    have hlonger : ZerosAt all (if run.length = 0 then index else run.start) (run.length + 1) ∧
        (if run.length = 0 then index else run.start) + (run.length + 1) = index + 1 := by
      by_cases hnew : run.length = 0
      · refine ⟨fun k hk hk' => ?_, by simp [hnew]⟩
        simp only [hnew, if_true] at hk hk'
        obtain rfl : k = index := by omega
        exact hhere
      · have hend := h.open_ hnew
        refine ⟨fun k hk hk' => ?_, by simp only [hnew, if_false]; omega⟩
        simp only [hnew, if_false] at hk hk'
        by_cases hlast : k = index
        · exact hlast ▸ hhere
        · exact h.zeros k hk (by omega)
    simp only [if_true]
    split
    · exact ⟨hlonger.1, fun _ => hlonger.2, hlonger.1⟩
    · exact ⟨hlonger.1, fun _ => hlonger.2, h.bestZeros⟩
  · rw [if_neg hzero]
    exact ⟨fun k hk hk' => absurd (hk.trans_lt hk') (by simp), fun h => absurd rfl h, h.bestZeros⟩

theorem ZeroRun.Sound.foldl {all rest : List Nat} {index : Nat} {run : ZeroRun}
    (h : run.Sound all index) (hrest : all.drop index = rest) :
    ((rest.zipIdx index).foldl (fun run part => run.visit part.2 part.1) run).Sound all
      (index + rest.length) := by
  induction rest generalizing index run with
  | nil => simpa using h
  | cons hextet rest ih =>
    have hhere : all[index]? = some hextet := by
      have := congrArg (fun l => l[0]?) hrest
      simpa using this
    have hnext : all.drop (index + 1) = rest := by
      have := congrArg List.tail hrest
      simpa using this
    rw [List.zipIdx_cons, List.foldl_cons, List.length_cons]
    have hfold := ih (h.visit hhere) hnext
    rwa [Nat.add_assoc, Nat.add_comm 1] at hfold

/-- The hextets of the parts of a text: what is left out are zeros. -/
def expand (parts : List (List Char)) : List Nat :=
  let high := parts.takeWhile (· ≠ [])
  let low := (parts.dropWhile (· ≠ [])).filter (· ≠ [])
  high.map hexValue ++ List.replicate (8 - (high.length + low.length)) 0 ++ low.map hexValue

theorem map_hexValue (A : List Nat) : (A.map (Nat.toDigits 16)).map hexValue = A := by
  simp [List.map_map, Function.comp_def, hexValue_toDigits]

theorem splitOn_join (A : List Nat) : ([':'].intercalate (A.map (Nat.toDigits 16))).splitOn ':' =
    if A = [] then [[]] else A.map (Nat.toDigits 16) := by
  split
  · rename_i hnil
    simp [hnil, List.intercalate_nil]
  · rename_i hne
    refine List.splitOn_intercalate ':' ?_ (by simpa using hne)
    simp only [List.forall_mem_map]
    intro k _ hcolon
    exact (toDigits_chars (by decide) le_rfl k ':' hcolon).1 rfl

theorem filter_parts (A : List Nat) :
    (A.map (Nat.toDigits 16)).filter (· ≠ []) = A.map (Nat.toDigits 16) := by
  simp [List.filter_eq_self]

theorem expand_parts (A : List Nat) (rest : List (List Char))
    (hrest : rest.head? ∈ [none, some []]) : expand (A.map (Nat.toDigits 16) ++ rest) =
      A ++ List.replicate (8 - (A.length + (rest.filter (· ≠ [])).length)) 0 ++
        (rest.filter (· ≠ [])).map hexValue := by
  have hnonempty : ∀ part ∈ A.map (Nat.toDigits 16), decide (part ≠ []) = true := by simp
  have hstop : rest.takeWhile (· ≠ []) = [] ∧ rest.dropWhile (· ≠ []) = rest := by
    cases rest with
    | nil => simp
    | cons part rest =>
      obtain rfl : part = [] := by simpa using hrest
      simp
  unfold expand
  dsimp only
  rw [List.takeWhile_append_of_pos hnonempty, List.dropWhile_append_of_pos hnonempty, hstop.1,
    hstop.2, List.append_nil, map_hexValue, List.length_map]

theorem expand_full {A : List Nat} (hlength : A.length = 8) :
    expand (([':'].intercalate (A.map (Nat.toDigits 16))).splitOn ':') = A := by
  have hne : A ≠ [] := fun hnil => by simp [hnil] at hlength
  have hparts := expand_parts A [] (by simp)
  rw [splitOn_join, if_neg hne]
  simpa [hlength] using hparts

theorem expand_gap (A B : List Nat) :
    expand (([':'].intercalate (A.map (Nat.toDigits 16)) ++ [':', ':'] ++
      [':'].intercalate (B.map (Nat.toDigits 16))).splitOn ':') =
    A ++ List.replicate (8 - (A.length + B.length)) 0 ++ B := by
  have hsplit : ([':'].intercalate (A.map (Nat.toDigits 16)) ++ [':', ':'] ++
      [':'].intercalate (B.map (Nat.toDigits 16))).splitOn ':' =
      (if A = [] then [[]] else A.map (Nat.toDigits 16)) ++
        [] :: (if B = [] then [[]] else B.map (Nat.toDigits 16)) := by
    rw [List.append_assoc, List.cons_append, List.cons_append, List.nil_append,
      List.splitOn_append_cons_self, splitOn_join, ← splitOn_join B]
    rfl
  have hlow : (if B = [] then [[]] else B.map (Nat.toDigits 16)).filter (· ≠ []) =
      B.map (Nat.toDigits 16) := by
    split
    · rename_i hnil
      simp [hnil]
    · exact filter_parts B
  rw [hsplit]
  split
  · rename_i hnil
    subst hnil
    have hparts := expand_parts []
      ([[]] ++ [] :: (if B = [] then [[]] else B.map (Nat.toDigits 16))) (by simp)
    rw [List.map_nil, List.nil_append] at hparts
    rw [hparts, List.singleton_append, List.filter_cons_of_neg (by simp),
      List.filter_cons_of_neg (by simp), hlow, List.length_map, map_hexValue]
  · have hparts := expand_parts A
      ([] :: (if B = [] then [[]] else B.map (Nat.toDigits 16))) (by simp)
    rw [hparts, List.filter_cons_of_neg (by simp), hlow, List.length_map, map_hexValue]

theorem longestRun_zeros (parts : List Nat) :
    let run : ZeroRun := parts.zipIdx.foldl (fun run part => run.visit part.2 part.1) {}
    ZerosAt parts run.bestStart run.bestLength := by
  have hnone (k : Nat) (hle : 0 ≤ k) (hlt : k < 0 + 0) : parts[k]? = some 0 := absurd hlt (by omega)
  have hstart : ZeroRun.Sound parts 0 {} := ⟨hnone, fun h => absurd rfl h, hnone⟩
  exact (hstart.foldl List.drop_zero).bestZeros

/-- A list whose places from `start` on are `length` zeros. -/
theorem eq_zeros {parts : List Nat} {start length : Nat} (hzeros : ZerosAt parts start length)
    (hend : start + length ≤ parts.length) :
    parts.take start ++ List.replicate length 0 ++ parts.drop (start + length) = parts := by
  have hmiddle : (parts.drop start).take length = List.replicate length 0 := by
    refine List.eq_replicate_iff.mpr ⟨by simp; omega, fun x hx => ?_⟩
    obtain ⟨k, hk, rfl⟩ := List.mem_iff_getElem.mp hx
    rw [List.length_take] at hk
    have hplace := hzeros (start + k) (by omega) (by omega)
    rw [List.getElem?_eq_getElem (by omega)] at hplace
    simpa using hplace
  rw [← hmiddle, ← List.drop_drop, List.append_assoc, List.take_append_drop,
    List.take_append_drop]

/-- The text keeps every hextet: what is left out is a run of zeros. -/
theorem expand_textV6 (n : Nat) : expand ((textV6 n).splitOn ':') = hextets n := by
  have hlength : (hextets n).length = 8 := by simp [hextets]
  have hzeros := longestRun_zeros (hextets n)
  unfold textV6
  dsimp only at hzeros ⊢
  split
  · rename_i hlong
    rw [← List.map_take, ← List.map_drop, expand_gap]
    generalize ((hextets n).zipIdx.foldl (fun run part => run.visit part.2 part.1) {} : ZeroRun) =
      run at hzeros hlong ⊢
    have hend : run.bestStart + run.bestLength ≤ (hextets n).length := by
      by_contra hover
      have hlast := hzeros (run.bestStart + run.bestLength - 1) (by omega) (by omega)
      rw [List.getElem?_eq_none (by omega)] at hlast
      cases hlast
    have hgap : 8 - (((hextets n).take run.bestStart).length +
        ((hextets n).drop (run.bestStart + run.bestLength)).length) = run.bestLength := by
      simp only [List.length_take, List.length_drop]
      omega
    rw [hgap]
    exact eq_zeros hzeros hend
  · exact expand_full hlength

theorem textV6_injective {m n : Nat} (hm : m < 2 ^ 128) (hn : n < 2 ^ 128)
    (h : textV6 m = textV6 n) : m = n := by
  refine hextets_injective hm hn ?_
  rw [← expand_textV6, ← expand_textV6, h]

theorem percent_notMem_join (A : List Nat) :
    '%' ∉ [':'].intercalate (A.map (Nat.toDigits 16)) := by
  have hdigits (n : Nat) : '%' ∉ Nat.toDigits 16 n := fun h =>
    (toDigits_chars (by decide) le_rfl n '%' h).2.1 rfl
  induction A with
  | nil => simp [List.intercalate_nil]
  | cons a A ih =>
    cases A with
    | nil => simpa [List.intercalate_singleton] using hdigits a
    | cons b A => simpa [List.intercalate_cons_cons, hdigits] using ih

theorem textV6_chars (n : Nat) : ':' ∈ textV6 n ∧ '%' ∉ textV6 n := by
  unfold textV6
  dsimp only
  split
  · rw [← List.map_take, ← List.map_drop]
    simp [percent_notMem_join, -List.map_take, -List.map_drop]
  · refine ⟨?_, percent_notMem_join _⟩
    by_contra hcolon
    -- a text without a colon is one part, and there are eight hextets
    have hone := List.splitOn_eq_singleton hcolon
    rw [splitOn_join] at hone
    simpa [hextets] using congrArg List.length hone

theorem takeWhile_scope (n : Nat) (scope : List Char) :
    (textV6 n ++ '%' :: scope).takeWhile (· ≠ '%') = textV6 n ∧
      (textV6 n ++ '%' :: scope).dropWhile (· ≠ '%') = '%' :: scope := by
  have hpos : ∀ c ∈ textV6 n, decide (c ≠ '%') = true := fun c hc =>
    decide_eq_true fun h => (textV6_chars n).2 (h ▸ hc)
  rw [List.takeWhile_append_of_pos hpos, List.dropWhile_append_of_pos hpos]
  simp

/-- The text of an address determines it. -/
theorem compressed_injective : Function.Injective compressed := by
  have hv4 (m n : BitVec 32) (h : textV4 m.toNat = textV4 n.toNat) : m = n :=
    BitVec.eq_of_toNat_eq (textV4_injective m.isLt n.isLt h)
  have hv6 (m n : BitVec 128) (h : textV6 m.toNat = textV6 n.toNat) : m = n :=
    BitVec.eq_of_toNat_eq (textV6_injective m.isLt n.isLt h)
  have hcolon (m : Nat) (n : Nat) (scope : List Char) : textV4 m ≠ textV6 n ++ scope := fun h =>
    textV4_chars m (h ▸ List.mem_append_left _ (textV6_chars n).1)
  have hscope (m n : Nat) (scope : List Char) : textV6 m ≠ textV6 n ++ '%' :: scope := fun h =>
    (textV6_chars m).2 (h ▸ by simp)
  intro a b h
  have hchars : a.compressed.toList = b.compressed.toList := congrArg String.toList h
  cases a with
  | v4 m =>
    cases b with
    | v4 n => rw [hv4 m n (by simpa [compressed] using hchars)]
    | v6 n scope =>
      cases scope with
      | none => exact absurd (by simpa [compressed] using hchars) (hcolon m.toNat n.toNat [])
      | some scope => exact absurd (by simpa [compressed] using hchars) (hcolon m.toNat n.toNat _)
  | v6 m scope =>
    cases b with
    | v4 n =>
      cases scope with
      | none => exact absurd (by simpa [compressed] using hchars.symm) (hcolon n.toNat m.toNat [])
      | some scope =>
        exact absurd (by simpa [compressed] using hchars.symm) (hcolon n.toNat m.toNat _)
    | v6 n scope' =>
      cases scope with
      | none =>
        cases scope' with
        | none => rw [hv6 m n (by simpa [compressed] using hchars)]
        | some scope' =>
          exact absurd (by simpa [compressed] using hchars) (hscope m.toNat n.toNat _)
      | some scope =>
        cases scope' with
        | none =>
          exact absurd (by simpa [compressed] using hchars.symm) (hscope n.toNat m.toNat _)
        | some scope' =>
          simp only [compressed, String.toList_ofList] at hchars
          have haddress := congrArg (List.takeWhile (· ≠ '%')) hchars
          have htail := congrArg (List.dropWhile (· ≠ '%')) hchars
          rw [(takeWhile_scope _ _).1, (takeWhile_scope _ _).1] at haddress
          rw [(takeWhile_scope _ _).2, (takeWhile_scope _ _).2] at htail
          rw [hv6 m n haddress, String.toList_inj.mp (List.cons.inj htail).2]

/-! ## `_ip` of `app/services/proxiware_qualification.py` -/

/-- The address, or the IPv4 address that it maps. -/
def unmapped : IpAddress → IpAddress
  | .v4 value => .v4 value
  | .v6 value scope =>
    if value.toNat / 2 ^ 32 = 0xFFFF then .v4 (value.setWidth 32) else .v6 value scope

/-- A loopback, link-local, unspecified, multicast or private address. -/
def Reserved : IpAddress → Prop
  | .v4 value =>
    let n := value.toNat
    n / 2 ^ 24 = 127 ∨ n / 2 ^ 16 = 0xA9FE ∨ n = 0 ∨ n / 2 ^ 28 = 0xE ∨ n / 2 ^ 24 = 10 ∨
      n / 2 ^ 20 = 0xAC1 ∨ n / 2 ^ 16 = 0xC0A8
  | .v6 value _ =>
    let n := value.toNat
    n = 1 ∨ n / 2 ^ 118 = 0x3FA ∨ n = 0 ∨ n / 2 ^ 120 = 0xFF ∨ n / 2 ^ 121 = 0x7E

instance (a : IpAddress) : Decidable a.Reserved := by
  rcases a with ⟨⟩ <;> unfold Reserved <;> infer_instance

end IpAddress

/-- `_ip` outside of tests. What `is_global` says is left to the release of the standard library. -/
def normalizeExitIp (isGlobal : IpAddress → Bool) (text : String) : String :=
  match ipAddress (Text.strip text) with
  | none => ""
  | some address =>
    if address.unmapped.Reserved ∨ isGlobal address.unmapped = false then ""
    else address.unmapped.compressed

example : normalizeExitIp (fun _ => true) " ::ffff:8.8.8.8 " = "8.8.8.8" := by
  decide +kernel

example : normalizeExitIp (fun _ => true) "10.0.0.1" = "" := by decide +kernel

end EarnProxy
