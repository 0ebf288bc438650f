import EarnProxy.ProxyParser

/-!
# Hosts that were validated

The characters that separate the fields of a line stand in a validated host where they stand in the
host that was given: a colon in an IPv6 address only, an `@` in its scope only, and a slash in none.
A validated host without a colon is validated as it is.
-/

namespace EarnProxy

/-! ## Characters of a text -/

/-- A property of some characters, one by one. -/
theorem forall_mem_of_all {P : Char → Prop} [DecidablePred P] {cs : List Char}
    (h : cs.all (fun c => decide (P c)) = true) : ∀ c ∈ cs, P c := by
  simpa using h

theorem isSome_of_mapM {α β : Type} {f : α → Option β} {xs : List α} {ys : List β}
    (h : xs.mapM f = some ys) : ∀ x ∈ xs, (f x).isSome := by
  induction xs generalizing ys with
  | nil => simp
  | cons x xs ih =>
    rw [List.mapM_cons] at h
    obtain ⟨y, hy, h⟩ := Option.bind_eq_some_iff.mp h
    obtain ⟨zs, hzs, -⟩ := Option.bind_eq_some_iff.mp h
    exact List.forall_mem_cons.mpr ⟨by rw [hy]; rfl, ih hzs⟩

theorem mem_intercalate {sep c : Char} {parts : List (List Char)}
    (hc : c ∈ [sep].intercalate parts) : c = sep ∨ ∃ part ∈ parts, c ∈ part := by
  induction parts with
  | nil => simp [List.intercalate_nil] at hc
  | cons part parts ih =>
    cases parts with
    | nil => exact .inr ⟨part, by simp, by simpa [List.intercalate_singleton] using hc⟩
    | cons next parts =>
      rw [List.intercalate_cons_cons, List.mem_append, List.mem_append, List.mem_singleton] at hc
      rcases hc with (hc | hc) | hc
      · exact .inr ⟨part, by simp, hc⟩
      · exact .inl hc
      · rcases ih hc with hc | ⟨other, hother, hc⟩
        · exact .inl hc
        · exact .inr ⟨other, List.mem_cons_of_mem _ hother, hc⟩

theorem mem_splitOn (sep : Char) {c : Char} {cs : List Char} (hc : c ∈ cs) :
    c = sep ∨ ∃ part ∈ cs.splitOn sep, c ∈ part := by
  have hcs : [sep].intercalate (cs.splitOn sep) = cs := List.intercalate_splitOn sep
  rw [← hcs] at hc
  exact mem_intercalate hc

theorem mem_dropWhile_of_not {p : Char → Bool} {c : Char} (hc : p c = false) (cs : List Char) :
    c ∈ cs.dropWhile p ↔ c ∈ cs := by
  induction cs with
  | nil => rfl
  | cons d cs ih =>
    rw [List.dropWhile_cons]
    split
    · rename_i hd
      have hne : c ≠ d := fun h => by rw [← h, hc] at hd; cases hd
      simp [ih, hne]
    · rfl

theorem mem_rdropWhile_of_not {p : Char → Bool} {c : Char} (hc : p c = false) (cs : List Char) :
    c ∈ cs.rdropWhile p ↔ c ∈ cs := by
  unfold List.rdropWhile
  rw [List.mem_reverse, mem_dropWhile_of_not hc, List.mem_reverse]

namespace Text

/-- A text of characters that lower case leaves alone. -/
theorem lower_eq_self {cs : List Char} (h : ∀ c ∈ cs, lowerChar c = [c]) :
    cs.flatMap lowerChar = cs := by
  induction cs with
  | nil => rfl
  | cons c cs ih =>
    obtain ⟨hc, hcs⟩ := List.forall_mem_cons.mp h
    rw [List.flatMap_cons, hc, ih hcs, List.singleton_append]

/-- A character in front of the letters is the lower case of no other one. -/
theorem mem_lowerChar {c d : Char} (hc : c.toNat < 'A'.toNat) : c ∈ lowerChar d ↔ c = d := by
  have hA : 'A'.toNat = 65 := rfl
  have hlow (e : Char) : c = e.toLower ↔ c = e := by
    unfold Char.toLower
    split
    · rename_i h
      have hupper : e.toNat ≥ 65 := h.1
      have hlowered : (e.val + ('a'.val - 'A'.val)).toNat = e.toNat + 32 := by
        have hZ : e.val.toNat ≤ 90 := h.2
        have hd : ('a'.val - 'A'.val).toNat = 32 := rfl
        rw [UInt32.toNat_add, hd]
        unfold Char.toNat
        omega
      refine ⟨fun hce => ?_, fun hce => ?_⟩
      · have : c.toNat = e.toNat + 32 := by rw [hce]; exact hlowered
        omega
      · rw [hce] at hc
        omega
    · rfl
  have hmark {n : Nat} (hn : 'A'.toNat ≤ n) (hd : d.toNat = n) : c ≠ d := fun h => by
    rw [h] at hc
    omega
  unfold lowerChar
  split
  · rename_i hd
    have hi : c ≠ 'i' := fun h => by rw [h] at hc; exact absurd hc (by decide)
    have hdot : c ≠ Char.ofNat 0x307 := fun h => by rw [h] at hc; exact absurd hc (by decide)
    simp [hi, hdot, hmark (by decide) hd]
  · rename_i hd
    have hk : c ≠ 'k' := fun h => by rw [h] at hc; exact absurd hc (by decide)
    simp [hk, hmark (by decide) hd]
  · rw [List.mem_singleton, hlow]

theorem mem_flatMap_lowerChar {c : Char} (hc : c.toNat < 'A'.toNat) (cs : List Char) :
    c ∈ cs.flatMap lowerChar ↔ c ∈ cs := by
  simp [List.mem_flatMap, mem_lowerChar hc]

theorem mem_stripChars {c : Char} (hc : isSpace c = false) (cs : List Char) :
    c ∈ stripChars cs ↔ c ∈ cs := by
  unfold stripChars
  rw [List.mem_reverse, mem_dropWhile_of_not hc, List.mem_reverse, mem_dropWhile_of_not hc]

end Text

/-- The characters that a line is divided at. -/
def IsMark (c : Char) : Prop := c = ':' ∨ c = '@' ∨ c = '/'

theorem IsMark.facts {c : Char} (hc : IsMark c) : c.toNat < 'A'.toNat ∧ Text.isSpace c = false ∧
    c ≠ '.' ∧ c ≠ '%' ∧ IpAddress.hexDigit? c = none ∧ IpAddress.isDecimal c = false := by
  rcases hc with rfl | rfl | rfl <;> decide

theorem mem_normalizedHost {c : Char} (hc : IsMark c) (host : List Char) :
    c ∈ normalizedHost host ↔ c ∈ host := by
  obtain ⟨hlow, hspace, hdot, -⟩ := hc.facts
  unfold normalizedHost
  rw [mem_rdropWhile_of_not (by simpa using hdot), Text.mem_flatMap_lowerChar hlow,
    Text.mem_stripChars hspace]

namespace IpAddress

theorem isDecimal_digitChar {d : Nat} (hd : d < 10) : isDecimal d.digitChar := by
  have hall : ∀ d : Fin 10, isDecimal d.val.digitChar := by decide
  exact hall ⟨d, hd⟩

/-- A property of every digit character is one of the digits of every number. -/
theorem toDigits_all {base : Nat} {P : Char → Prop} (hbase : 1 < base)
    (hP : ∀ d < base, P d.digitChar) (n : Nat) : ∀ c ∈ Nat.toDigits base n, P c := by
  induction n using Nat.strongRecOn with
  | _ n ih =>
    rw [Nat.toDigits_eq_if hbase]
    split
    · rename_i hlt
      simpa using hP n hlt
    · rename_i hle
      intro c hc
      rcases List.mem_append.mp hc with hc | hc
      · exact ih (n / base) (Nat.div_lt_self (by omega) hbase) c hc
      · rw [List.mem_singleton.mp hc]
        exact hP _ (Nat.mod_lt n (by omega))

theorem decimalDigits (n : Nat) : ∀ c ∈ Nat.toDigits 10 n, isDecimal c :=
  toDigits_all (by decide) (fun _ hd => isDecimal_digitChar hd) n

theorem hexDigits (n : Nat) : ∀ c ∈ Nat.toDigits 16 n, (hexDigit? c).isSome :=
  toDigits_all (by decide) (fun d hd => by rw [hexDigit?_digitChar hd]; rfl) n

theorem textV4_digits {n : Nat} {c : Char} (hc : c ∈ textV4 n) : c = '.' ∨ isDecimal c := by
  rcases mem_intercalate hc with hc | ⟨part, hpart, hc⟩
  · exact .inl hc
  · obtain ⟨m, -, rfl⟩ := List.mem_map.mp hpart
    exact .inr (decimalDigits _ c hc)

theorem mem_textV6 {n : Nat} {c : Char} (hc : c ∈ textV6 n) :
    c = ':' ∨ ∃ m, c ∈ Nat.toDigits 16 m := by
  have hjoin {parts : List (List Char)}
      (hsub : ∀ part ∈ parts, part ∈ (hextets n).map (Nat.toDigits 16))
      (hc : c ∈ [':'].intercalate parts) : c = ':' ∨ ∃ m, c ∈ Nat.toDigits 16 m := by
    rcases mem_intercalate hc with hc | ⟨part, hpart, hc⟩
    · exact .inl hc
    · obtain ⟨m, -, rfl⟩ := List.mem_map.mp (hsub part hpart)
      exact .inr ⟨m, hc⟩
  unfold textV6 at hc
  dsimp only at hc
  split at hc
  · rw [List.mem_append, List.mem_append] at hc
    rcases hc with (hc | hc) | hc
    · exact hjoin (fun _ h => List.mem_of_mem_take h) hc
    · exact .inl (by simpa using hc)
    · exact hjoin (fun _ h => List.mem_of_mem_drop h) hc
  · exact hjoin (fun _ h => h) hc

theorem textV6_digits {n : Nat} {c : Char} (hc : c ∈ textV6 n) :
    c = ':' ∨ (hexDigit? c).isSome := by
  rcases mem_textV6 hc with hc | ⟨m, hc⟩
  · exact .inl hc
  · exact .inr (hexDigits m c hc)

theorem parseOctet_digits {cs : List Char} {n : Nat} (h : parseOctet cs = some n) :
    ∀ c ∈ cs, isDecimal c := by
  unfold parseOctet at h
  split at h
  · cases h
  · rename_i hcs
    simpa using (not_or.mp (not_or.mp hcs).2).1

theorem parseV4_chars {cs : List Char} {n : Nat} (h : parseV4 cs = some n) {c : Char}
    (hc : c ∈ cs) : c = '.' ∨ isDecimal c := by
  unfold parseV4 at h
  split at h
  · rename_i octets
    rcases mem_splitOn '.' hc with hc | ⟨part, hpart, hc⟩
    · exact .inl hc
    · obtain ⟨m, hm⟩ := Option.isSome_iff_exists.mp (isSome_of_mapM octets part hpart)
      exact .inr (parseOctet_digits hm c hc)
  · cases h

theorem parseHextet_digits {cs : List Char} {n : Nat} (h : parseHextet cs = some n) :
    ∀ c ∈ cs, (hexDigit? c).isSome := by
  unfold parseHextet at h
  split at h
  · cases h
  · obtain ⟨digits, hdigits, -⟩ := Option.map_eq_some_iff.mp h
    exact isSome_of_mapM hdigits

theorem v6Parts_chars {cs : List Char} {parts : List (Option Nat)} (h : v6Parts cs = some parts)
    {c : Char} (hc : c ∈ cs) : c = ':' ∨ c = '.' ∨ isDecimal c ∨ (hexDigit? c).isSome := by
  rcases mem_splitOn ':' hc with hc | ⟨part, hpart, hc⟩
  · exact .inl hc
  right
  -- what is said of a part that was read as a hextet
  have hhextet (hpart : (if part = [] then some none else (parseHextet part).map some).isSome) :
      c = '.' ∨ isDecimal c ∨ (hexDigit? c).isSome := by
    split at hpart
    · rename_i hnil
      rw [hnil] at hc
      cases hc
    · obtain ⟨n, hn⟩ := Option.isSome_iff_exists.mp (by simpa using hpart)
      exact .inr (.inr (parseHextet_digits hn c hc))
  unfold v6Parts at h
  dsimp only at h
  split at h
  · cases h
  rename_i last hlast
  split_ifs at h with hshort hdotted
  · obtain ⟨v4, hv4, h⟩ := Option.bind_eq_some_iff.mp h
    obtain ⟨front, hfront, -⟩ := Option.bind_eq_some_iff.mp h
    have hsplit := List.dropLast_append_getLast? last (Option.mem_def.mpr hlast)
    rw [← hsplit, List.mem_append, List.mem_singleton] at hpart
    rcases hpart with hpart | rfl
    · exact hhextet (isSome_of_mapM hfront part hpart)
    · rcases parseV4_chars hv4 hc with hc | hc
      · exact .inl hc
      · exact .inr (.inl hc)
  · exact hhextet (isSome_of_mapM h part hpart)

theorem colon_mem_of_v6Parts {cs : List Char} {parts : List (Option Nat)}
    (h : v6Parts cs = some parts) : ':' ∈ cs := by
  by_contra hcolon
  unfold v6Parts at h
  rw [List.splitOn_eq_singleton hcolon] at h
  simp at h

theorem splitScope_front {cs address : List Char} {scope : Option String}
    (h : splitScope cs = some (address, scope)) : address = cs.takeWhile (· ≠ '%') := by
  unfold splitScope at h
  dsimp only at h
  split at h
  · exact (Prod.mk.inj (Option.some.inj h)).1.symm
  · split_ifs at h
    exact (Prod.mk.inj (Option.some.inj h)).1.symm

/-- A scope as it stands behind an address. -/
def scopeText : Option String → List Char
  | none => []
  | some scope => '%' :: scope.toList

theorem splitScope_eq {cs address : List Char} {scope : Option String}
    (h : splitScope cs = some (address, scope)) : cs = address ++ scopeText scope := by
  have hcs := List.takeWhile_append_dropWhile (p := (· ≠ '%')) (l := cs)
  unfold splitScope at h
  dsimp only at h
  split at h
  · rename_i hnone
    obtain ⟨rfl, rfl⟩ := Prod.mk.inj (Option.some.inj h)
    rw [hnone] at hcs
    exact hcs.symm
  · rename_i percent rest hsome
    split_ifs at h
    obtain ⟨rfl, rfl⟩ := Prod.mk.inj (Option.some.inj h)
    have hpercent : percent = '%' := by
      have := List.head?_dropWhile_not (· ≠ '%') cs
      rw [hsome] at this
      simpa using this
    rw [hsome, hpercent] at hcs
    simpa [scopeText] using hcs.symm

end IpAddress

/-- An address has the marks of the text that it was read from. -/
theorem mem_compressed {cs : List Char} {address : IpAddress}
    (h : ipAddress (String.ofList cs) = some address) {c : Char} (hc : IsMark c) :
    c ∈ address.compressed.toList ↔ c ∈ cs := by
  obtain ⟨-, -, hdot, hpercent, hhex, hdecimal⟩ := hc.facts
  unfold ipAddress at h
  rw [String.toList_ofList] at h
  dsimp only at h
  split at h
  · rename_i value hvalue
    have haddress := Option.some.inj h
    subst haddress
    rw [IpAddress.compressed, String.toList_ofList]
    refine iff_of_false (fun hmem => ?_) (fun hmem => ?_)
    · rcases IpAddress.textV4_digits hmem with h | h
      · exact hdot h
      · rw [hdecimal] at h; cases h
    · rcases IpAddress.parseV4_chars hvalue hmem with h | h
      · exact hdot h
      · rw [hdecimal] at h; cases h
  · split_ifs at h with hslash
    obtain ⟨⟨text, scope⟩, hscope, h⟩ := Option.bind_eq_some_iff.mp h
    obtain ⟨value, hvalue, h⟩ := Option.bind_eq_some_iff.mp h
    obtain ⟨parts, hparts, -⟩ := Option.bind_eq_some_iff.mp hvalue
    have haddress := Option.some.inj h
    subst haddress
    -- in the address itself there are colons and no other marks
    have htext : c ∈ text ↔ c = ':' := by
      refine ⟨fun hmem => ?_, fun h => h ▸ IpAddress.colon_mem_of_v6Parts hparts⟩
      rcases IpAddress.v6Parts_chars hparts hmem with h | h | h | h
      · exact h
      · exact absurd h hdot
      · rw [hdecimal] at h; cases h
      · rw [hhex] at h; cases h
    have hcompressed (n : Nat) : c ∈ IpAddress.textV6 n ↔ c = ':' := by
      refine ⟨fun hmem => ?_, fun h => h ▸ (IpAddress.textV6_chars n).1⟩
      rcases IpAddress.textV6_digits hmem with h | h
      · exact h
      · rw [hhex] at h; cases h
    rw [IpAddress.splitScope_eq hscope]
    cases scope <;> simp [IpAddress.compressed, IpAddress.scopeText, hcompressed, htext, hpercent]

section

variable {isGlobal : IpAddress → Bool} {normalized host : List Char}

/-- What a host in the normal form is that was accepted: an address, or labels. -/
theorem checkProxyHost_ok (h : checkProxyHost isGlobal normalized = .ok host) :
    (∃ address text, ipAddress (String.ofList normalized) = some address ∧
      publicIp isGlobal address.compressed.toList = .ok text ∧ host = address.compressed.toList) ∨
    host = normalized ∧ ipAddress (String.ofList normalized) = none ∧
      ∀ label ∈ normalized.splitOn '.', isProxyLabel label := by
  unfold checkProxyHost at h
  by_cases hlocal : normalized = [] ∨ String.ofList normalized ∈ localHosts
  · rw [if_pos hlocal] at h
    cases h
  rw [if_neg hlocal] at h
  cases haddress : ipAddress (String.ofList normalized) with
  | some address =>
    rw [haddress] at h
    dsimp only at h
    cases hpublic : publicIp isGlobal address.compressed.toList with
    | error e => rw [hpublic] at h; cases h
    | ok text =>
      rw [hpublic] at h
      exact .inl ⟨address, text, rfl, hpublic, (Except.ok.inj h).symm⟩
  | none =>
    rw [haddress] at h
    dsimp only at h
    split_ifs at h with hlegacy hlabels
    exact .inr ⟨(Except.ok.inj h).symm, rfl, List.all_eq_true.mp (by simpa using hlabels)⟩

theorem isProxyLabel_chars {label : List Char} (h : isProxyLabel label) {c : Char}
    (hc : c ∈ label) : c.isLower ∨ c.isDigit ∨ c = '-' := by
  simp only [isProxyLabel, Bool.and_eq_true, List.all_eq_true, Bool.or_eq_true, beq_iff_eq] at h
  rcases h.2 c hc with (h | h) | h
  · exact .inl h
  · exact .inr (.inl h)
  · exact .inr (.inr h)

/-- No mark is a character of a label. -/
theorem IsMark.not_label {c : Char} (hc : IsMark c) : ¬ (c.isLower ∨ c.isDigit ∨ c = '-') := by
  rcases hc with rfl | rfl | rfl <;> decide

theorem mem_checkProxyHost (h : checkProxyHost isGlobal normalized = .ok host) {c : Char}
    (hc : IsMark c) : c ∈ host ↔ c ∈ normalized := by
  rcases checkProxyHost_ok h with ⟨address, text, haddress, -, rfl⟩ | ⟨rfl, -, -⟩
  · exact mem_compressed haddress hc
  · exact Iff.rfl

/-- There is no slash in a host that was accepted. -/
theorem slash_notMem_checkProxyHost (h : checkProxyHost isGlobal normalized = .ok host) :
    '/' ∉ normalized := by
  have hmark : IsMark '/' := .inr (.inr rfl)
  obtain ⟨-, -, hdot, -, -, hdecimal⟩ := hmark.facts
  intro hslash
  rcases checkProxyHost_ok h with ⟨address, text, haddress, -, -⟩ | ⟨-, -, hlabels⟩
  · unfold ipAddress at haddress
    rw [String.toList_ofList] at haddress
    dsimp only at haddress
    split at haddress
    · rename_i hvalue
      rcases IpAddress.parseV4_chars hvalue hslash with h | h
      · exact hdot h
      · rw [hdecimal] at h; cases h
    · rw [if_pos hslash] at haddress
      cases haddress
  · rcases mem_splitOn '.' hslash with h | ⟨label, hlabel, hc⟩
    · exact hdot h
    · exact hmark.not_label (isProxyLabel_chars (hlabels label hlabel) hc)

/-! ## Hosts without a colon -/

/-- The characters of a host that is a name or an IPv4 address. -/
def IsPlainHostChar (c : Char) : Prop := c.isLower ∨ c.isDigit ∨ c = '-' ∨ c = '.'

theorem IsPlainHostChar.facts {c : Char} (hc : IsPlainHostChar c) :
    Text.isSpace c = false ∧ isControl c = false ∧ Text.lowerChar c = [c] := by
  have hrange : 45 ≤ c.toNat ∧ c.toNat ≤ 57 ∨ 97 ≤ c.toNat ∧ c.toNat ≤ 122 := by
    rcases hc with h | h | rfl | rfl
    · exact .inr (Text.isLower_iff.mp h)
    · have := Text.isDigit_iff.mp h
      omega
    · decide
    · decide
  refine ⟨?_, ?_, ?_⟩
  · unfold Text.isSpace
    dsimp only
    generalize c.toNat = n at hrange ⊢
    simp
    omega
  · unfold isControl
    simp
    omega
  · unfold Text.lowerChar
    split
    · omega
    · omega
    · congr 1
      unfold Char.toLower
      refine dif_neg fun h => ?_
      have : 65 ≤ c.toNat ∧ c.toNat ≤ 90 := h
      omega

theorem plainHostChar_of_digit {c : Char} (h : IpAddress.isDecimal c) : IsPlainHostChar c :=
  .inr (.inl (by simpa [IpAddress.isDecimal, Char.isDigit, Char.le_def] using h))

theorem plain_textV4 {n : Nat} {c : Char} (hc : c ∈ IpAddress.textV4 n) : IsPlainHostChar c := by
  rcases IpAddress.textV4_digits hc with rfl | hc
  · exact .inr (.inr (.inr rfl))
  · exact plainHostChar_of_digit hc

theorem textV4_eq (n : Nat) : ∃ front last, IpAddress.textV4 n = front ++ '.' :: last ∧
    last = Nat.toDigits 10 (n % 256) ∧ (IpAddress.textV4 n).length ≤ 15 := by
  have hlength (m : Nat) : (Nat.toDigits 10 (m % 256)).length ≤ 3 := by
    have hall : ∀ m : Fin 256, (Nat.toDigits 10 m.val).length ≤ 3 := by decide +kernel
    exact hall ⟨m % 256, Nat.mod_lt m (by decide)⟩
  have h1 := hlength (n / 16777216)
  have h2 := hlength (n / 65536)
  have h3 := hlength (n / 256)
  have h4 := hlength n
  refine ⟨Nat.toDigits 10 (n / 16777216 % 256) ++ '.' :: (Nat.toDigits 10 (n / 65536 % 256) ++
    '.' :: Nat.toDigits 10 (n / 256 % 256)), _, ?_, rfl, ?_⟩ <;> unfold IpAddress.textV4 <;>
    simp only [List.map_cons, List.map_nil, List.intercalate_cons_cons, List.intercalate_singleton]
  · simp
  · simp only [List.length_append, List.length_singleton]
    omega

/-- An IPv4 address does not end in a dot. -/
theorem rdropWhile_textV4 (n : Nat) :
    (IpAddress.textV4 n).rdropWhile (· = '.') = IpAddress.textV4 n := by
  obtain ⟨front, last, heq, hlast, -⟩ := textV4_eq n
  refine List.rdropWhile_eq_self_iff.mpr fun hne => ?_
  have hne' : last ≠ [] := by
    rw [hlast]
    exact Nat.toDigits_ne_nil
  have hdigit : (IpAddress.textV4 n).getLast hne ∈ last := by
    simp only [heq, List.getLast_append_of_ne_nil _ (List.cons_ne_nil '.' last),
      List.getLast_cons hne', List.getLast_mem]
  rw [hlast] at hdigit
  have hdecimal := IpAddress.decimalDigits _ _ hdigit
  intro hdot
  rw [of_decide_eq_true hdot] at hdecimal
  cases hdecimal

theorem stripChars_plain {cs : List Char} (hcs : ∀ c ∈ cs, IsPlainHostChar c) :
    Text.stripChars cs = cs := by
  refine Text.Trimmed.stripChars_eq ⟨fun c hc => ?_, fun c hc => ?_⟩
  · exact (hcs c (List.mem_of_mem_head? hc)).facts.1
  · exact (hcs c (List.mem_of_mem_getLast? hc)).facts.1

theorem lower_plain {cs : List Char} (hcs : ∀ c ∈ cs, IsPlainHostChar c) :
    cs.flatMap Text.lowerChar = cs := Text.lower_eq_self fun c hc => (hcs c hc).facts.2.2

/-- The host as the first line of `_validate` normalizes it. -/
def strippedHost (host : List Char) : List Char := (Text.stripChars host).flatMap Text.lowerChar

/-- A validated host without a colon is what its validation returns. -/
structure PlainHost (isGlobal : IpAddress → Bool) (host : List Char) : Prop where
  chars : ∀ c ∈ host, IsPlainHostChar c
  normal : normalizedHost host = host
  checked : checkProxyHost isGlobal host = .ok host

theorem PlainHost.nonempty {host : List Char} (h : PlainHost isGlobal host) : host ≠ [] := by
  rintro rfl
  have hchecked := h.checked
  unfold checkProxyHost at hchecked
  rw [if_pos (.inl rfl)] at hchecked
  cases hchecked

theorem PlainHost.stripped {host : List Char} (h : PlainHost isGlobal host) :
    strippedHost host = host := by
  rw [strippedHost, stripChars_plain h.chars, lower_plain h.chars]

theorem PlainHost.validate {host : List Char} (h : PlainHost isGlobal host) :
    validateProxyHost isGlobal host = .ok host := by
  unfold validateProxyHost
  rw [h.normal, h.checked]

theorem plainHost_v4 {value : BitVec 32} {text : List Char}
    (hpublic : publicIp isGlobal (IpAddress.v4 value).compressed.toList = .ok text) :
    PlainHost isGlobal (IpAddress.v4 value).compressed.toList := by
  have htoList : (IpAddress.v4 value).compressed.toList = IpAddress.textV4 value.toNat := by
    rw [IpAddress.compressed, String.toList_ofList]
  have hread : ipAddress (String.ofList (IpAddress.textV4 value.toNat)) = some (.v4 value) := by
    unfold ipAddress
    rw [String.toList_ofList]
    dsimp only
    rw [IpAddress.parseV4_textV4 value.isLt]
    simp
  have hchars : ∀ c ∈ IpAddress.textV4 value.toNat, IsPlainHostChar c := fun c hc => plain_textV4 hc
  rw [htoList] at hpublic ⊢
  refine ⟨hchars, ?_, ?_⟩
  · unfold normalizedHost
    rw [stripChars_plain hchars, lower_plain hchars, rdropWhile_textV4]
  · have hlocal : ¬ (IpAddress.textV4 value.toNat = [] ∨
        String.ofList (IpAddress.textV4 value.toNat) ∈ localHosts) := by
      rintro (h | h)
      · have hnone : ipAddress (String.ofList []) = none := by decide
        rw [h, hnone] at hread
        cases hread
      · have hall : ∀ name ∈ localHosts, ipAddress name = none := by decide +kernel
        rw [hall _ h] at hread
        cases hread
    unfold checkProxyHost
    rw [if_neg hlocal, hread]
    dsimp only
    rw [htoList, hpublic]
    rfl

/-- What was accepted without a colon has plain characters only. -/
theorem plain_of_check (h : checkProxyHost isGlobal normalized = .ok host) (hcolon : ':' ∉ host) :
    ∀ c ∈ normalized, IsPlainHostChar c := by
  intro c hc
  have hcolon' : ':' ∉ normalized := by rwa [← mem_checkProxyHost h (.inl rfl)]
  rcases checkProxyHost_ok h with ⟨address, text, haddress, -, rfl⟩ | ⟨rfl, -, hlabels⟩
  · unfold ipAddress at haddress
    rw [String.toList_ofList] at haddress
    dsimp only at haddress
    split at haddress
    · rename_i hvalue
      rcases IpAddress.parseV4_chars hvalue hc with rfl | hc
      · exact .inr (.inr (.inr rfl))
      · exact plainHostChar_of_digit hc
    · split_ifs at haddress
      obtain ⟨⟨text, scope⟩, hscope, haddress⟩ := Option.bind_eq_some_iff.mp haddress
      obtain ⟨value, hvalue, -⟩ := Option.bind_eq_some_iff.mp haddress
      obtain ⟨parts, hparts, -⟩ := Option.bind_eq_some_iff.mp hvalue
      refine absurd ?_ hcolon'
      rw [IpAddress.splitScope_eq hscope]
      exact List.mem_append_left _ (IpAddress.colon_mem_of_v6Parts hparts)
  · rcases mem_splitOn '.' hc with rfl | ⟨label, hlabel, hc⟩
    · exact .inr (.inr (.inr rfl))
    · rcases isProxyLabel_chars (hlabels label hlabel) hc with hc | hc | hc
      · exact .inl hc
      · exact .inr (.inl hc)
      · exact .inr (.inr (.inl hc))

/-- An address that is no IPv6 address. -/
theorem eq_v4_of_colon_notMem {address : IpAddress} (h : ':' ∉ address.compressed.toList) :
    ∃ value, address = .v4 value := by
  cases address with
  | v4 value => exact ⟨value, rfl⟩
  | v6 value scope =>
    refine absurd ?_ h
    have hv6 := (IpAddress.textV6_chars value.toNat).1
    cases scope <;> simp [IpAddress.compressed, hv6]

/-- A validated host without a colon is valid as it is. -/
theorem plainHost_of_check {given : List Char}
    (h : checkProxyHost isGlobal (normalizedHost given) = .ok host) (hcolon : ':' ∉ host) :
    PlainHost isGlobal host := by
  rcases checkProxyHost_ok h with ⟨address, text, haddress, hpublic, rfl⟩ | ⟨rfl, -, hlabels⟩
  · obtain ⟨value, rfl⟩ := eq_v4_of_colon_notMem hcolon
    exact plainHost_v4 hpublic
  · have hchars := plain_of_check h hcolon
    refine ⟨hchars, ?_, h⟩
    have hidem : (normalizedHost given).rdropWhile (· = '.') = normalizedHost given :=
      List.rdropWhile_idempotent _ _
    rw [normalizedHost, stripChars_plain hchars, lower_plain hchars, hidem]

theorem Text.lowerChar_of_mem {c d : Char} (h : d ∈ Text.lowerChar c) : Text.lowerChar d = [d] := by
  have hlow : d.toLower = d := Text.toLower_lowerChar h
  have hnot : d.toNat ≠ 0x130 ∧ d.toNat ≠ 0x212A := by
    unfold Text.lowerChar at h
    split at h
    · simp only [List.mem_cons, List.not_mem_nil, or_false] at h
      rcases h with rfl | rfl <;> decide
    · rw [List.mem_singleton.mp h]
      decide
    · rename_i h1 h2
      rw [List.mem_singleton] at h
      subst h
      unfold Char.toLower
      split
      · rename_i hupper
        have hZ : c.val.toNat ≤ 90 := hupper.2
        have hd : ('a'.val - 'A'.val).toNat = 32 := rfl
        unfold Char.toNat
        dsimp only
        rw [UInt32.toNat_add, hd]
        omega
      · exact ⟨h1, h2⟩
  unfold Text.lowerChar
  split
  · exact absurd ‹_› hnot.1
  · exact absurd ‹_› hnot.2
  · rw [hlow]

/-- The normal form of a text in lower case is no longer than the text. -/
theorem length_normalizedHost_le (host : List Char) :
    (normalizedHost (host.flatMap Text.lowerChar)).length ≤
    (host.flatMap Text.lowerChar).length := by
  have hlower : ∀ d ∈ host.flatMap Text.lowerChar, Text.lowerChar d = [d] := by
    intro d hd
    obtain ⟨c, -, hc⟩ := List.mem_flatMap.mp hd
    exact Text.lowerChar_of_mem hc
  have hstrip : (Text.stripChars (host.flatMap Text.lowerChar)).Sublist
      (host.flatMap Text.lowerChar) :=
    ((List.rdropWhile_prefix _ _).sublist).trans (List.dropWhile_sublist _)
  rw [normalizedHost, Text.lower_eq_self fun d hd => hlower d (hstrip.subset hd)]
  exact ((List.rdropWhile_prefix _ _).sublist.length_le).trans hstrip.length_le

/-- A validated host without a colon is an IPv4 address or no longer than the host in lower case. -/
theorem length_checked_le {given : List Char}
    (h : checkProxyHost isGlobal (normalizedHost (given.flatMap Text.lowerChar)) = .ok host)
    (hcolon : ':' ∉ host) : host.length ≤ max 15 (given.flatMap Text.lowerChar).length := by
  rcases checkProxyHost_ok h with ⟨address, text, -, -, rfl⟩ | ⟨rfl, -, -⟩
  · obtain ⟨value, rfl⟩ := eq_v4_of_colon_notMem hcolon
    obtain ⟨-, -, -, -, hlength⟩ := textV4_eq value.toNat
    rw [IpAddress.compressed, String.toList_ofList]
    exact le_max_of_le_left hlength
  · exact le_max_of_le_right (length_normalizedHost_le given)

end

/-! ## What `_validate` accepts -/

structure Validated (isGlobal : IpAddress → Bool) (protocol host : List Char) (port : Int)
    (username password : List Char) (p : ParsedProxy) : Prop where
  nonempty : strippedHost host ≠ []
  clean : ∀ c ∈ strippedHost host, Text.isSpace c = false ∧ isControl c = false
  port_pos : 1 ≤ port
  port_le : port ≤ 65535
  host_length : (strippedHost host).length ≤ 253
  host_eq : validateProxyHost isGlobal (strippedHost host) = .ok p.host.toList
  username_length : username.length ≤ 512
  password_length : password.length ≤ 2048
  protocol_eq : normalizedProtocol protocol = some p.protocol
  control : ∀ c ∈ username ++ password, isControl c = false
  port_eq : p.port = port
  username_eq : p.username.toList = username
  password_eq : p.password.toList = password

/-- A check that was passed. -/
theorem ok_of_if {α : Type} {c : Prop} [Decidable c] {e : String} {x : Except String α} {a : α}
    (h : (if c then .error e else x) = .ok a) : ¬ c ∧ x = .ok a := by
  split_ifs at h with hc
  exact ⟨hc, h⟩

theorem validate_ok_iff {isGlobal : IpAddress → Bool} {protocol host : List Char} {port : Int}
    {username password : List Char} {p : ParsedProxy} :
    validate isGlobal protocol host port username password = .ok p ↔
      Validated isGlobal protocol host port username password p := by
  constructor
  · intro h
    unfold validate at h
    dsimp only at h
    split_ifs at h with hbad hport hlong
    split at h
    · cases h
    rename_i valid hvalid
    unfold checkCredentials at h
    obtain ⟨huser, h⟩ := ok_of_if h
    obtain ⟨hpass, h⟩ := ok_of_if h
    split at h
    · cases h
    rename_i normalized hprotocol
    obtain ⟨hcontrol, h⟩ := ok_of_if h
    obtain rfl := Except.ok.inj h
    obtain ⟨hnonempty, hclean⟩ := not_or.mp hbad
    obtain ⟨hcontrolU, hcontrolW⟩ := not_or.mp hcontrol
    obtain ⟨hpos, hle⟩ := not_or.mp hport
    simp only [List.any_eq_true, Bool.or_eq_true, not_exists, not_and, not_or,
      Bool.not_eq_true] at hclean hcontrolU hcontrolW
    exact {
      nonempty := hnonempty, clean := hclean
      port_pos := by omega
      port_le := by omega
      host_length := by rw [strippedHost]; omega
      host_eq := by rw [String.toList_ofList]; exact hvalid
      username_length := by omega
      password_length := by omega
      protocol_eq := hprotocol
      control := fun c hc => (List.mem_append.mp hc).elim (hcontrolU c) (hcontrolW c)
      port_eq := Int.toNat_of_nonneg (by omega)
      username_eq := String.toList_ofList
      password_eq := String.toList_ofList }
  · intro h
    have hclean : ¬ (strippedHost host = [] ∨
        (strippedHost host).any fun c => Text.isSpace c || isControl c) := by
      rw [List.any_eq_true]
      rintro (hnil | ⟨c, hc, hbad⟩)
      · exact h.nonempty hnil
      · rw [(h.clean c hc).1, (h.clean c hc).2] at hbad
        cases hbad
    have hcontrol : ¬ (username.any isControl ∨ password.any isControl) := by
      rw [List.any_eq_true, List.any_eq_true]
      rintro (⟨c, hc, hbad⟩ | ⟨c, hc, hbad⟩)
      · rw [h.control c (List.mem_append_left _ hc)] at hbad
        cases hbad
      · rw [h.control c (List.mem_append_right _ hc)] at hbad
        cases hbad
    have hpos := h.port_pos
    have hle := h.port_le
    have hhost := h.host_eq
    have hlength := h.host_length
    unfold strippedHost at hclean hhost hlength
    unfold validate checkCredentials
    dsimp only
    rw [if_neg hclean, if_neg (by omega), if_neg (by omega), hhost]
    dsimp only
    rw [if_neg (by have := h.username_length; omega), if_neg (by have := h.password_length; omega),
      h.protocol_eq]
    dsimp only
    rw [if_neg hcontrol, ← h.username_eq, ← h.password_eq, ← h.port_eq]
    simp

namespace Validated

variable {isGlobal : IpAddress → Bool} {protocol host : List Char} {port : Int}
variable {username password : List Char} {p : ParsedProxy}

/-- The marks of a validated host are those of the host that was given. -/
theorem mem_host (h : Validated isGlobal protocol host port username password p) {c : Char}
    (hc : IsMark c) : c ∈ p.host.toList ↔ c ∈ host := by
  rw [mem_checkProxyHost h.host_eq hc, mem_normalizedHost hc, strippedHost,
    Text.mem_flatMap_lowerChar hc.facts.1, Text.mem_stripChars hc.facts.2.1]

theorem slash_notMem (h : Validated isGlobal protocol host port username password p) :
    '/' ∉ host := by
  have hmark : IsMark '/' := .inr (.inr rfl)
  have hchecked := slash_notMem_checkProxyHost h.host_eq
  rwa [mem_normalizedHost hmark, strippedHost, Text.mem_flatMap_lowerChar hmark.facts.1,
    Text.mem_stripChars hmark.facts.2.1] at hchecked

/-- Another protocol that is one makes no other difference. -/
theorem withProtocol (h : Validated isGlobal protocol host port username password p)
    (other : List Char) (normalized : String)
    (hother : normalizedProtocol other = some normalized) :
    Validated isGlobal other host port username password { p with protocol := normalized } :=
  { h with protocol_eq := hother }

/-- Only the host without blanks at its ends matters. -/
theorem congr_host (h : Validated isGlobal protocol host port username password p)
    {other : List Char} (hother : Text.stripChars other = Text.stripChars host) :
    Validated isGlobal protocol other port username password p := by
  have heq : strippedHost other = strippedHost host := by unfold strippedHost; rw [hother]
  exact { h with
    nonempty := heq ▸ h.nonempty, clean := heq ▸ h.clean
    host_length := heq ▸ h.host_length, host_eq := heq ▸ h.host_eq }

/-- What was accepted is accepted again, for a host that is no IPv6 address. -/
theorem again (h : Validated isGlobal protocol host port username password p)
    (hcolon : ':' ∉ host) :
    Validated isGlobal protocol p.host.toList p.port username password p := by
  have hcolon' : ':' ∉ p.host.toList := by rwa [h.mem_host (.inl rfl)]
  have hplain : PlainHost isGlobal p.host.toList := plainHost_of_check h.host_eq hcolon'
  have heq := hplain.stripped
  exact {
    nonempty := by rw [heq]; exact hplain.nonempty
    clean := fun c hc => by
      rw [heq] at hc
      exact ⟨(hplain.chars c hc).facts.1, (hplain.chars c hc).facts.2.1⟩
    port_pos := by rw [h.port_eq]; exact h.port_pos
    port_le := by rw [h.port_eq]; exact h.port_le
    host_length := by
      rw [heq]
      exact (length_checked_le h.host_eq hcolon').trans (max_le (by decide) h.host_length)
    host_eq := by rw [heq]; exact hplain.validate
    username_length := h.username_length
    password_length := h.password_length
    protocol_eq := h.protocol_eq
    control := h.control
    port_eq := rfl
    username_eq := h.username_eq
    password_eq := h.password_eq }

end Validated

end EarnProxy
