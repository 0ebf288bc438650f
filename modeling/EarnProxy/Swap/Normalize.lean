import EarnProxy.AddressRoundTrip
import EarnProxy.LowerCase
import EarnProxy.Swap.Dashboard

/-!
# `normalize_dashboard_address`

The normal form of a dashboard address is the text of its endpoint, with brackets around an IPv6
host that has a port. What is read from an address can be written, and what is written is read as
the same endpoint, as long as the text is not too long to be read at all.
-/

namespace EarnProxy

namespace Text.LowerCase

variable (lowercase : LowerCase)

/-- `dashboard_address_endpoint`. -/
def dashboardAddressEndpoint (address : String) : Option Swap.Endpoint := do
  let value ← Swap.requiredText address 512
  let (host, port) ← Swap.splitAddress value.toList
  let host ← Swap.checkedHost (String.ofList (lowercase.lower (stripChars host)))
  pure { host, port }

theorem dashboardAddressEndpoint_lowering :
    lowering.dashboardAddressEndpoint = Swap.dashboardAddressEndpoint := by
  have hhost (host : List Char) : Swap.canonicalHost host =
      Swap.checkedHost (String.ofList (lowering.lower (stripChars host))) := by
    rw [Swap.canonicalHost, Text.lower, Text.strip, String.toList_ofList, String.toList_ofList]
    rfl
  funext address
  unfold dashboardAddressEndpoint Swap.dashboardAddressEndpoint
  simp only [hhost]

end Text.LowerCase

namespace Swap

/-- The text that `normalize_dashboard_address` writes. -/
def Endpoint.text (endpoint : Endpoint) : String :=
  match endpoint.port with
  | none => endpoint.host
  | some port =>
    let digits := Nat.toDigits 10 port
    if ':' ∈ endpoint.host.toList then
      String.ofList ('[' :: endpoint.host.toList ++ ']' :: ':' :: digits)
    else String.ofList (endpoint.host.toList ++ ':' :: digits)

/-- `normalize_dashboard_address`. -/
def normalizeDashboardAddress (lowercase : Text.LowerCase) (address : String) : Option String :=
  (lowercase.dashboardAddressEndpoint address).map Endpoint.text

/-! ## What is written is read -/

/-- An endpoint whose text is read back. -/
structure Endpoint.Readable (lowercase : Text.LowerCase) (endpoint : Endpoint) : Prop where
  trimmed : Text.Trimmed endpoint.host.toList
  stable : ∀ c ∈ endpoint.host.toList, lowercase.Stable c
  printable : ∀ c ∈ endpoint.host.toList, 32 ≤ c.toNat
  checked : checkedHost endpoint.host = some endpoint.host
  nonempty : endpoint.host.toList ≠ []
  bracket : endpoint.host.toList.head? ≠ some '['
  /-- A colon is never alone. -/
  colon : endpoint.host.toList.count ':' ≠ 1
  closing : endpoint.port.isSome → ':' ∈ endpoint.host.toList → ']' ∉ endpoint.host.toList
  port : ∀ port ∈ endpoint.port, 1 ≤ port ∧ port ≤ 65535

theorem requiredText_some {value text : String} {limit : Nat}
    (h : requiredText value limit = some text) :
    text = Text.strip value ∧ text ≠ "" ∧ text.length ≤ limit ∧
      ∀ c ∈ text.toList, 32 ≤ c.toNat := by
  unfold requiredText at h
  dsimp only at h
  split_ifs at h with hbad
  obtain rfl := Option.some.inj h
  obtain ⟨hne, hrest⟩ := not_or.mp hbad
  obtain ⟨hlength, hcontrol⟩ := not_or.mp hrest
  refine ⟨rfl, hne, by omega, fun c hc => ?_⟩
  simp only [List.any_eq_true, decide_eq_true_eq, not_exists, not_and] at hcontrol
  have := hcontrol c hc
  omega

/-- A text that needs no stripping. -/
theorem requiredText_of_trimmed {cs : List Char} (htrimmed : Text.Trimmed cs) (hne : cs ≠ [])
    (hcontrol : ∀ c ∈ cs, 32 ≤ c.toNat) (limit : Nat) :
    requiredText (String.ofList cs) limit =
      if cs.length ≤ limit then some (String.ofList cs) else none := by
  have hstrip : Text.strip (String.ofList cs) = String.ofList cs := by
    rw [Text.strip, String.toList_ofList, htrimmed.stripChars_eq]
  have hempty : String.ofList cs ≠ "" := by
    rw [Ne, String.ofList_eq_empty_iff]
    exact hne
  have hany : ¬ ((String.ofList cs).toList.any fun c => decide (c.toNat < 32)) = true := by
    rw [String.toList_ofList, List.any_eq_true]
    rintro ⟨c, hc, hlt⟩
    have := hcontrol c hc
    rw [decide_eq_true_eq] at hlt
    omega
  unfold requiredText
  rw [hstrip]
  dsimp only
  by_cases hlength : cs.length ≤ limit
  · rw [if_pos hlength, if_neg]
    rw [String.length_ofList]
    exact not_or.mpr ⟨hempty, not_or.mpr ⟨by omega, hany⟩⟩
  · rw [if_neg hlength, if_pos]
    rw [String.length_ofList]
    exact .inr (.inl (by omega))

theorem digits_of_toDigits {c : Char} {n : Nat} (hc : c ∈ Nat.toDigits 10 n) :
    48 ≤ c.toNat ∧ c.toNat ≤ 57 := by
  have h := IpAddress.decimalDigits n c hc
  simp only [IpAddress.isDecimal, Bool.and_eq_true, decide_eq_true_eq, Char.le_def,
    UInt32.le_iff_toNat_le] at h
  exact h

theorem isDigit_toDigits (n : Nat) : Text.isDigit (String.ofList (Nat.toDigits 10 n)) := by
  obtain ⟨digits, hdigits, -⟩ := Text.mapM_decimal?_toDigits n
  have hdecimal := isSome_of_mapM hdigits
  unfold Text.isDigit
  rw [String.toList_ofList]
  simp only [Bool.and_eq_true, decide_eq_true_eq, List.all_eq_true, Bool.or_eq_true]
  exact ⟨Nat.toDigits_ne_nil, fun c hc => .inl (hdecimal c hc)⟩

/-- A port is read from its digits. -/
theorem portValue_toDigits {port : Nat} (hpos : 1 ≤ port) (hle : port ≤ 65535) :
    portValue (Nat.toDigits 10 port) = some port := by
  obtain ⟨digits, hdigits, hvalue⟩ := Text.mapM_decimal?_toDigits port
  unfold portValue Text.digitsInt?
  rw [if_pos (isDigit_toDigits port), String.toList_ofList, hdigits, Option.map_some, hvalue]
  simp [hpos, hle]

theorem portValue_some {digits : List Char} {port : Nat} (h : portValue digits = some port) :
    1 ≤ port ∧ port ≤ 65535 := by
  unfold portValue at h
  split_ifs at h
  obtain ⟨-, hrange⟩ := Option.filter_eq_some_iff.mp h
  simpa using hrange

/-- The three forms of a text. -/
theorem Endpoint.text_cases (endpoint : Endpoint) :
    endpoint.port = none ∧ endpoint.text.toList = endpoint.host.toList ∨
    (∃ port, endpoint.port = some port ∧ ':' ∈ endpoint.host.toList ∧
      endpoint.text.toList = '[' :: endpoint.host.toList ++ ']' :: ':' :: Nat.toDigits 10 port) ∨
    ∃ port, endpoint.port = some port ∧ ':' ∉ endpoint.host.toList ∧
      endpoint.text.toList = endpoint.host.toList ++ ':' :: Nat.toDigits 10 port := by
  unfold Endpoint.text
  cases endpoint.port with
  | none => exact .inl ⟨rfl, rfl⟩
  | some port =>
    dsimp only
    by_cases hcolon : ':' ∈ endpoint.host.toList
    · rw [if_pos hcolon, String.toList_ofList]
      exact .inr (.inl ⟨port, rfl, hcolon, rfl⟩)
    · rw [if_neg hcolon, String.toList_ofList]
      exact .inr (.inr ⟨port, rfl, hcolon, rfl⟩)

section

variable {lowercase : Text.LowerCase} {endpoint : Endpoint}

theorem takeWhile_ne {c : Char} {front : List Char} (h : c ∉ front) (rest : List Char) :
    (front ++ c :: rest).takeWhile (· ≠ c) = front ∧
      (front ++ c :: rest).dropWhile (· ≠ c) = c :: rest := by
  have hpos : ∀ d ∈ front, decide (d ≠ c) = true :=
    fun d hd => decide_eq_true fun heq => h (heq ▸ hd)
  rw [List.takeWhile_append_of_pos hpos, List.dropWhile_append_of_pos hpos]
  simp

theorem splitAddress_text (h : endpoint.Readable lowercase) :
    splitAddress endpoint.text.toList = some (endpoint.host.toList, endpoint.port) := by
  rcases endpoint.text_cases with ⟨hport, htext⟩ | ⟨port, hport, hcolon, htext⟩ |
      ⟨port, hport, hcolon, htext⟩
  · unfold splitAddress
    rw [htext, hport, if_neg h.bracket, if_neg h.colon]
  · obtain ⟨hpos, hle⟩ := h.port port hport
    obtain ⟨htake, hdrop⟩ := takeWhile_ne (h.closing (by rw [hport]; rfl) hcolon)
      (':' :: Nat.toDigits 10 port)
    unfold splitAddress
    rw [htext, hport, List.cons_append, if_pos List.head?_cons]
    dsimp only [List.tail_cons]
    rw [htake, hdrop]
    dsimp only
    rw [if_neg h.nonempty]
    change (portValue _).map _ = _
    rw [portValue_toDigits hpos hle]
    rfl
  · obtain ⟨hpos, hle⟩ := h.port port hport
    obtain ⟨htake, hdrop⟩ := takeWhile_ne hcolon (Nat.toDigits 10 port)
    have hhead : (endpoint.host.toList ++ ':' :: Nat.toDigits 10 port).head? ≠ some '[' := by
      rw [List.head?_append_of_ne_nil _ h.nonempty]
      exact h.bracket
    have hdigits : ':' ∉ Nat.toDigits 10 port :=
      fun hc => absurd (digits_of_toDigits hc) (by decide)
    have hcount : (endpoint.host.toList ++ ':' :: Nat.toDigits 10 port).count ':' = 1 := by
      rw [List.count_append, List.count_cons_self, List.count_eq_zero.mpr hcolon,
        List.count_eq_zero.mpr hdigits]
    unfold splitAddress
    rw [htext, hport, if_neg hhead, if_pos hcount]
    dsimp only
    rw [htake, hdrop, List.tail_cons, if_pos (isDigit_toDigits port), if_neg h.nonempty,
      portValue_toDigits hpos hle]
    rfl

/-- Digits are no blanks and no control characters. -/
theorem digit_not_space {c : Char} {n : Nat} (hc : c ∈ Nat.toDigits 10 n) :
    Text.isSpace c = false :=
  (plainHostChar_of_digit (IpAddress.decimalDigits n c hc)).facts.1

theorem trimmed_text (h : endpoint.Readable lowercase) : Text.Trimmed endpoint.text.toList := by
  have hlast (front : List Char) (port : Nat) :
      ∀ c ∈ (front ++ Nat.toDigits 10 port).getLast?, Text.isSpace c = false := by
    intro c hc
    rw [List.getLast?_append_of_ne_nil _ Nat.toDigits_ne_nil] at hc
    exact digit_not_space (List.mem_of_getLast? hc)
  rcases endpoint.text_cases with ⟨-, htext⟩ | ⟨port, -, -, htext⟩ | ⟨port, -, -, htext⟩
  · rw [htext]
    exact h.trimmed
  · rw [htext]
    refine ⟨fun c hc => ?_, fun c hc => ?_⟩
    · obtain rfl : '[' = c := by simpa using hc
      decide
    · refine hlast ('[' :: endpoint.host.toList ++ [']', ':']) port c ?_
      simpa using hc
  · rw [htext]
    refine ⟨fun c hc => ?_, fun c hc => ?_⟩
    · rw [List.head?_append_of_ne_nil _ h.nonempty] at hc
      exact h.trimmed.head c hc
    · refine hlast (endpoint.host.toList ++ [':']) port c ?_
      simpa using hc

theorem printable_text (h : endpoint.Readable lowercase) :
    ∀ c ∈ endpoint.text.toList, 32 ≤ c.toNat := by
  intro c hc
  have hdigit {port : Nat} (hc : c ∈ Nat.toDigits 10 port) : 32 ≤ c.toNat := by
    have := (digits_of_toDigits hc).1
    omega
  rcases endpoint.text_cases with ⟨-, htext⟩ | ⟨port, -, -, htext⟩ | ⟨port, -, -, htext⟩
  · exact h.printable c (htext ▸ hc)
  · rw [htext, List.mem_append, List.mem_cons, List.mem_cons, List.mem_cons] at hc
    rcases hc with (rfl | hc) | rfl | rfl | hc
    · decide
    · exact h.printable c hc
    · decide
    · decide
    · exact hdigit hc
  · rw [htext, List.mem_append, List.mem_cons] at hc
    rcases hc with hc | rfl | hc
    · exact h.printable c hc
    · decide
    · exact hdigit hc

theorem text_ne_nil (h : endpoint.Readable lowercase) : endpoint.text.toList ≠ [] := by
  rcases endpoint.text_cases with ⟨-, htext⟩ | ⟨port, -, -, htext⟩ | ⟨port, -, -, htext⟩ <;>
    rw [htext]
  · exact h.nonempty
  · simp
  · simp

/-- The text of an endpoint is read as the endpoint, unless it is too long. -/
theorem endpoint_text (h : endpoint.Readable lowercase) :
    lowercase.dashboardAddressEndpoint endpoint.text =
      if endpoint.text.length ≤ 512 then some endpoint else none := by
  have hrequired := requiredText_of_trimmed (trimmed_text h) (text_ne_nil h) (printable_text h) 512
  rw [String.ofList_toList] at hrequired
  unfold Text.LowerCase.dashboardAddressEndpoint
  rw [hrequired, ← String.length_toList]
  by_cases hlength : endpoint.text.toList.length ≤ 512
  · rw [if_pos hlength, if_pos hlength, Option.bind_eq_bind, Option.bind_some, splitAddress_text h,
      Option.bind_eq_bind, Option.bind_some]
    dsimp only
    rw [h.trimmed.stripChars_eq, lowercase.lower_stable _ h.stable, String.ofList_toList, h.checked]
    rfl
  · rw [if_neg hlength, if_neg hlength]
    rfl

end


/-! ## What is read can be written -/

theorem splitAddress_some {value host : List Char} {port : Option Nat}
    (h : splitAddress value = some (host, port)) :
    (∀ c ∈ host, c ∈ value) ∧ (port.isSome → ':' ∈ host → ']' ∉ host) ∧
      ∀ p ∈ port, 1 ≤ p ∧ p ≤ 65535 := by
  have htake {c : Char} {cs : List Char} : c ∉ cs.takeWhile (· ≠ c) := fun hc => by
    simpa using List.mem_takeWhile_imp hc
  unfold splitAddress at h
  split_ifs at h with hbracket hone
  · dsimp only at h
    split at h
    · cases h
    have hsub : ∀ c ∈ value.tail.takeWhile (· ≠ ']'), c ∈ value := fun c hc =>
      List.mem_of_mem_tail (List.takeWhile_subset _ hc)
    split_ifs at h
    split at h
    · obtain ⟨rfl, rfl⟩ := Prod.mk.inj (Option.some.inj h)
      exact ⟨hsub, fun hsome => (by cases hsome), fun p hp => (by cases hp)⟩
    · obtain ⟨port', hport, h⟩ := Option.map_eq_some_iff.mp h
      obtain ⟨rfl, rfl⟩ := Prod.mk.inj h
      refine ⟨hsub, fun _ _ => htake, fun p hp => ?_⟩
      obtain rfl := Option.some.inj hp
      exact portValue_some hport
    · cases h
  · dsimp only at h
    have hsub : ∀ c ∈ value.takeWhile (· ≠ ':'), c ∈ value := fun c hc => List.takeWhile_subset _ hc
    split_ifs at h
    · obtain ⟨port', hport, h⟩ := Option.map_eq_some_iff.mp h
      obtain ⟨rfl, rfl⟩ := Prod.mk.inj h
      refine ⟨hsub, fun _ hcolon => absurd hcolon htake, fun p hp => ?_⟩
      obtain rfl := Option.some.inj hp
      exact portValue_some hport
    · obtain ⟨rfl, rfl⟩ := Prod.mk.inj (Option.some.inj h)
      exact ⟨fun _ hc => hc, fun hsome => (by cases hsome), fun p hp => (by cases hp)⟩
  · obtain ⟨rfl, rfl⟩ := Prod.mk.inj (Option.some.inj h)
    exact ⟨fun _ hc => hc, fun hsome => (by cases hsome), fun p hp => (by cases hp)⟩

/-- A checked host is an address in its canonical spelling, or a name. -/
theorem checkedHost_some {text host : String} (h : checkedHost text = some host) :
    (∃ ip, ipAddress text = some ip ∧ host = ip.compressed) ∨
    host = text ∧ text.toList.length ≤ 253 ∧
      ∀ label ∈ text.toList.splitOn '.', isHostLabel label := by
  unfold checkedHost at h
  split at h
  · rename_i ip hip
    exact .inl ⟨ip, hip, (Option.some.inj h).symm⟩
  · dsimp only at h
    split_ifs at h with hbad
    obtain ⟨hlength, hrest⟩ := not_or.mp hbad
    refine .inr ⟨(Option.some.inj h).symm, by omega, ?_⟩
    simpa using (not_or.mp hrest).2

/-- A host is checked once. -/
theorem checkedHost_again {text host : String} (h : checkedHost text = some host) :
    checkedHost host = some host := by
  rcases checkedHost_some h with ⟨ip, hip, rfl⟩ | ⟨rfl, -, -⟩
  · unfold checkedHost
    rw [ipAddress_compressed hip]
  · exact h

theorem labelChar_facts {c : Char} (h : isLabelChar c ∨ c = '-' ∨ c = '.') :
    c ≠ ':' ∧ c ≠ '[' ∧ 32 ≤ c.toNat := by
  have hcode : 45 ≤ c.toNat ∧ c.toNat ≠ 58 ∧ c.toNat ≠ 91 := by
    rcases h with h | rfl | rfl
    · simp only [isLabelChar, Bool.or_eq_true, Text.isAlpha_iff, Text.isUpper_iff, Text.isLower_iff,
        Text.isDigit_iff, beq_iff_eq] at h
      omega
    · decide
    · decide
  refine ⟨?_, ?_, by omega⟩
  · rintro rfl
    exact hcode.2.1 rfl
  · rintro rfl
    exact hcode.2.2 rfl

theorem name_chars {cs : List Char} (h : ∀ label ∈ cs.splitOn '.', isHostLabel label) {c : Char}
    (hc : c ∈ cs) : isLabelChar c ∨ c = '-' ∨ c = '.' := by
  rcases mem_splitOn '.' hc with hdot | ⟨label, hlabel, hc⟩
  · exact .inr (.inr hdot)
  · have hlabel := h label hlabel
    simp only [isHostLabel, Bool.and_eq_true, List.all_eq_true, Bool.or_eq_true,
      beq_iff_eq] at hlabel
    exact (hlabel.2 c hc).imp id .inl

/-- The text of an IPv6 address and the scope that it was read with. -/
theorem v4_or_v6 {cs : List Char} {ip : IpAddress} (h : ipAddress (String.ofList cs) = some ip) :
    (∃ value, ip = .v4 value) ∨ ∃ n front tail, ip.compressed.toList = IpAddress.textV6 n ++ tail ∧
      cs = front ++ tail ∧ ':' ∈ front ∧ (tail ≠ [] → '%' ∈ tail) := by
  cases ip with
  | v4 value => exact .inl ⟨value, rfl⟩
  | v6 value scope =>
    right
    unfold ipAddress at h
    rw [String.toList_ofList] at h
    dsimp only at h
    split at h
    · cases h
    split_ifs at h
    obtain ⟨⟨front, scope'⟩, hscope, h⟩ := Option.bind_eq_some_iff.mp h
    obtain ⟨n, hn, h⟩ := Option.bind_eq_some_iff.mp h
    obtain ⟨parts, hparts, -⟩ := Option.bind_eq_some_iff.mp hn
    obtain ⟨-, rfl⟩ := IpAddress.v6.inj (Option.some.inj h)
    refine ⟨value.toNat, front, IpAddress.scopeText scope', IpAddress.compressed_v6 value scope',
      IpAddress.splitScope_eq hscope, IpAddress.colon_mem_of_v6Parts hparts, ?_⟩
    cases scope' <;> simp [IpAddress.scopeText]

theorem length_splitOn {α : Type} [BEq α] [LawfulBEq α] (a : α) (xs : List α) :
    (xs.splitOn a).length = xs.count a + 1 := by
  induction xs with
  | nil => rfl
  | cons x xs ih =>
    rw [List.splitOn_cons_eq_if_modifyHead, List.count_cons]
    split <;> simp [ih]

/-- There are colons around a gap, or between eight hextets. -/
theorem count_colon_textV6 (n : Nat) : 2 ≤ (IpAddress.textV6 n).count ':' := by
  rcases IpAddress.textV6_eq n with hfull | ⟨A, B, zeros, -, -, hgap⟩
  · have hlength := IpAddress.length_hextets n
    have hne : IpAddress.hextets n ≠ [] := fun h => by rw [h] at hlength; cases hlength
    have hparts := length_splitOn ':' (IpAddress.joined (IpAddress.hextets n))
    rw [IpAddress.joined, IpAddress.splitOn_join, if_neg hne, List.length_map, hlength] at hparts
    rw [hfull, IpAddress.joined]
    omega
  · rw [hgap, List.count_append, List.count_append]
    have hcolons : [':', ':'].count ':' = 2 := by decide
    omega

theorem length_joined_le {A : List Nat} (hA : ∀ m ∈ A, m < 65536) :
    (IpAddress.joined A).length ≤ 5 * A.length := by
  induction A with
  | nil => simp [IpAddress.joined, List.intercalate_nil]
  | cons a A ih =>
    obtain ⟨ha, hrest⟩ := List.forall_mem_cons.mp hA
    have hdigits : (Nat.toDigits 16 a).length ≤ 4 :=
      (Nat.length_toDigits_le_iff (by decide) (by decide)).mpr ha
    have ih := ih hrest
    unfold IpAddress.joined at ih ⊢
    cases A with
    | nil =>
      rw [List.map_cons, List.map_nil, List.intercalate_singleton, List.length_singleton]
      omega
    | cons b A =>
      rw [List.map_cons, List.map_cons, List.intercalate_cons_cons, List.length_append,
        List.length_append, List.length_singleton, ← List.map_cons, List.length_cons]
      omega

theorem length_textV6_le (n : Nat) : (IpAddress.textV6 n).length ≤ 42 := by
  have hlength := IpAddress.length_hextets n
  have hsmall : ∀ m ∈ IpAddress.hextets n, m < 65536 := fun m hm => IpAddress.hextets_lt hm
  rcases IpAddress.textV6_eq n with hfull | ⟨A, B, zeros, -, hsplit, hgap⟩
  · have := length_joined_le hsmall
    rw [hfull]
    omega
  · have hA : ∀ m ∈ A, m < 65536 := fun m hm => hsmall m (by rw [hsplit]; simp [hm])
    have hB : ∀ m ∈ B, m < 65536 := fun m hm => hsmall m (by rw [hsplit]; simp [hm])
    have hlengthA := length_joined_le hA
    have hlengthB := length_joined_le hB
    rw [hsplit, List.length_append, List.length_append, List.length_replicate] at hlength
    rw [hgap, List.length_append, List.length_append]
    have hcolons : [':', ':'].length = 2 := rfl
    omega

/-- The digits of an address have no case. -/
theorem textV6_facts {n : Nat} {c : Char} (hc : c ∈ IpAddress.textV6 n) :
    c.toNat < 128 ∧ ¬ c.isUpper ∧ Text.isSpace c = false ∧ c ≠ '[' ∧ c ≠ ']' ∧ 32 ≤ c.toNat := by
  have hdigit : ∀ d < 16, d.digitChar.toNat < 128 ∧ ¬ d.digitChar.isUpper ∧
      Text.isSpace d.digitChar = false ∧ d.digitChar ≠ '[' ∧ d.digitChar ≠ ']' ∧
      32 ≤ d.digitChar.toNat := by decide
  rcases IpAddress.mem_textV6 hc with rfl | ⟨m, hc⟩
  · decide
  · exact IpAddress.toDigits_all
      (P := fun c => c.toNat < 128 ∧ ¬ c.isUpper ∧ Text.isSpace c = false ∧
      c ≠ '[' ∧ c ≠ ']' ∧ 32 ≤ c.toNat) (by decide) hdigit m c hc

section

variable {lowercase : Text.LowerCase} {address : String} {endpoint : Endpoint}

/-- The steps of the parser that a text went through. -/
theorem exists_split (h : lowercase.dashboardAddressEndpoint address = some endpoint) :
    ∃ value host port, requiredText address 512 = some value ∧
      splitAddress value.toList = some (host, port) ∧
      checkedHost (String.ofList (lowercase.lower (Text.stripChars host))) = some endpoint.host ∧
      endpoint.port = port := by
  unfold Text.LowerCase.dashboardAddressEndpoint at h
  obtain ⟨value, hvalue, h⟩ := Option.bind_eq_some_iff.mp h
  obtain ⟨⟨host, port⟩, hsplit, h⟩ := Option.bind_eq_some_iff.mp h
  obtain ⟨checked, hchecked, h⟩ := Option.bind_eq_some_iff.mp h
  obtain rfl := Option.some.inj h
  exact ⟨value, host, port, hvalue, hsplit, hchecked, rfl⟩

variable (lowercase) in
/-- A character that is no letter is in the host in lower case if it is in the host. -/
theorem mem_lowered {host : List Char} {c : Char} (hascii : c.toNat < 128) (hletter : ¬ c.isAlpha)
    (hspace : Text.isSpace c = false) : c ∈ lowercase.lower (Text.stripChars host) ↔ c ∈ host := by
  rw [lowercase.mem_lower _ _ hascii hletter, Text.mem_stripChars hspace]

variable (lowercase) in
theorem lowered_printable {host : List Char} (h : ∀ c ∈ host, 32 ≤ c.toNat) :
    ∀ c ∈ lowercase.lower (Text.stripChars host), 32 ≤ c.toNat := by
  intro c hc
  by_contra hlow
  have hletter : ¬ c.isAlpha := by
    rw [Text.isAlpha_iff, Text.isUpper_iff, Text.isLower_iff]
    omega
  rw [lowercase.mem_lower _ _ (by omega) hletter] at hc
  have hsub : c ∈ host := (List.dropWhile_sublist _).subset ((List.rdropWhile_prefix _ _).subset hc)
  exact hlow (h c hsub)

/-- A plain character is printed as it is. -/
theorem plain_facts {c : Char} (h : IsPlainHostChar c) :
    c.toNat < 128 ∧ ¬ c.isUpper ∧ Text.isSpace c = false ∧ 32 ≤ c.toNat ∧ c ≠ '[' ∧ c ≠ ':' := by
  have hcode : 45 ≤ c.toNat ∧ c.toNat ≤ 57 ∨ 97 ≤ c.toNat ∧ c.toNat ≤ 122 := by
    rcases h with h | h | rfl | rfl
    · exact .inr (Text.isLower_iff.mp h)
    · have := Text.isDigit_iff.mp h
      omega
    · decide
    · decide
  have hne {d : Char} (hd : d.toNat = 91 ∨ d.toNat = 58) : c ≠ d := fun heq => by
    rw [← heq] at hd
    omega
  refine ⟨by omega, ?_, h.facts.1, by omega, hne (.inl rfl), hne (.inr rfl)⟩
  rw [Text.isUpper_iff]
  omega

theorem readable_v4 {v4 : BitVec 32} (hhost : endpoint.host = (IpAddress.v4 v4).compressed)
    (hagain : checkedHost endpoint.host = some endpoint.host)
    (hport : ∀ port ∈ endpoint.port, 1 ≤ port ∧ port ≤ 65535) : endpoint.Readable lowercase := by
  have hlist : endpoint.host.toList = IpAddress.textV4 v4.toNat := by
    rw [hhost, IpAddress.compressed, String.toList_ofList]
  have hplain : ∀ c ∈ endpoint.host.toList, IsPlainHostChar c := fun c hc => by
    rw [hlist] at hc
    exact plain_textV4 hc
  have hnocolon : ':' ∉ endpoint.host.toList := fun hc => (plain_facts (hplain _ hc)).2.2.2.2.2 rfl
  exact {
    trimmed := ⟨fun c hc => (hplain c (List.mem_of_mem_head? hc)).facts.1,
      fun c hc => (hplain c (List.mem_of_getLast? hc)).facts.1⟩
    stable := fun c hc =>
      lowercase.stable_ascii c (plain_facts (hplain c hc)).1 (plain_facts (hplain c hc)).2.1
    printable := fun c hc => (plain_facts (hplain c hc)).2.2.2.1
    checked := hagain
    nonempty := by
      obtain ⟨front, last, heq, -⟩ := textV4_eq v4.toNat
      simp [hlist, heq]
    bracket := fun hc => (plain_facts (hplain _ (List.mem_of_head? hc))).2.2.2.2.1 rfl
    colon := by
      rw [List.count_eq_zero.mpr hnocolon]
      decide
    closing := fun _ hcolon => absurd hcolon hnocolon
    port := hport }

/-- An IPv6 address has the tail that it was read with. -/
theorem readable_v6 {n : Nat} {front tail : List Char}
    (hhost : endpoint.host.toList = IpAddress.textV6 n ++ tail)
    (htrimmed : Text.Trimmed (front ++ tail)) (hstable : ∀ c ∈ tail, lowercase.Stable c)
    (hprintable : ∀ c ∈ tail, 32 ≤ c.toNat)
    (hclosing : endpoint.port.isSome → ']' ∉ tail)
    (hagain : checkedHost endpoint.host = some endpoint.host)
    (hport : ∀ port ∈ endpoint.port, 1 ≤ port ∧ port ≤ 65535) : endpoint.Readable lowercase := by
  have hne : IpAddress.textV6 n ≠ [] := List.ne_nil_of_mem (IpAddress.textV6_chars n).1
  have hhead : (IpAddress.textV6 n ++ tail).head? = (IpAddress.textV6 n).head? :=
    List.head?_append_of_ne_nil _ hne
  refine { trimmed := ⟨fun c hc => ?_, fun c hc => ?_⟩, stable := fun c hc => ?_,
           printable := fun c hc => ?_, checked := hagain, nonempty := ?_, bracket := ?_,
           colon := ?_, closing := fun hsome _ => ?_, port := hport }
  · rw [hhost, hhead] at hc
    exact (textV6_facts (List.mem_of_mem_head? hc)).2.2.1
  · rw [hhost] at hc
    cases tail with
    | nil =>
      rw [List.append_nil] at hc
      exact (textV6_facts (List.mem_of_getLast? hc)).2.2.1
    | cons d tail =>
      rw [List.getLast?_append_of_ne_nil _ (List.cons_ne_nil d tail)] at hc
      refine htrimmed.getLast c ?_
      rwa [List.getLast?_append_of_ne_nil _ (List.cons_ne_nil d tail)]
  · rw [hhost] at hc
    rcases List.mem_append.mp hc with hc | hc
    · exact lowercase.stable_ascii c (textV6_facts hc).1 (textV6_facts hc).2.1
    · exact hstable c hc
  · rw [hhost] at hc
    rcases List.mem_append.mp hc with hc | hc
    · exact (textV6_facts hc).2.2.2.2.2
    · exact hprintable c hc
  · rw [hhost]
    exact List.append_ne_nil_of_left_ne_nil hne tail
  · rw [hhost, hhead]
    exact fun hc => (textV6_facts (List.mem_of_head? hc)).2.2.2.1 rfl
  · have hcount := count_colon_textV6 n
    rw [hhost, List.count_append]
    omega
  · rw [hhost, List.mem_append]
    rintro (hc | hc)
    · exact (textV6_facts hc).2.2.2.2.1 rfl
    · exact hclosing hsome hc

theorem readable_name {lowered : List Char} (hhost : endpoint.host.toList = lowered)
    (htrimmed : Text.Trimmed lowered) (hstable : ∀ c ∈ lowered, lowercase.Stable c)
    (hlabels : ∀ label ∈ lowered.splitOn '.', isHostLabel label)
    (hagain : checkedHost endpoint.host = some endpoint.host)
    (hport : ∀ port ∈ endpoint.port, 1 ≤ port ∧ port ≤ 65535) : endpoint.Readable lowercase := by
  subst hhost
  have hfacts : ∀ c ∈ endpoint.host.toList, c ≠ ':' ∧ c ≠ '[' ∧ 32 ≤ c.toNat := fun c hc =>
    labelChar_facts (name_chars hlabels hc)
  have hnocolon : ':' ∉ endpoint.host.toList := fun hc => (hfacts _ hc).1 rfl
  exact {
    trimmed := htrimmed
    stable := hstable
    printable := fun c hc => (hfacts c hc).2.2
    checked := hagain
    nonempty := fun hnil => by
      rw [hnil] at hlabels
      exact absurd (hlabels [] (by simp)) (by decide)
    bracket := fun hc => (hfacts _ (List.mem_of_head? hc)).2.1 rfl
    colon := by
      rw [List.count_eq_zero.mpr hnocolon]
      decide
    closing := fun _ hcolon => absurd hcolon hnocolon
    port := hport }

/-- What was read as an endpoint has a text that is read again. -/
theorem readable_of_endpoint (h : lowercase.dashboardAddressEndpoint address = some endpoint) :
    endpoint.Readable lowercase := by
  obtain ⟨value, host, port, hvalue, hsplit, hchecked, rfl⟩ := exists_split h
  obtain ⟨-, -, -, hcontrol⟩ := requiredText_some hvalue
  obtain ⟨hsub, hclosing, hrange⟩ := splitAddress_some hsplit
  have htrimmed := lowercase.trimmed_lower _ (Text.trimmed_stripChars host)
  have hstable := lowercase.stable_lower (Text.stripChars host)
  have hprintable := lowered_printable lowercase fun c hc => hcontrol c (hsub c hc)
  have hagain := checkedHost_again hchecked
  rcases checkedHost_some hchecked with ⟨ip, hip, hhost⟩ | ⟨hhost, -, hlabels⟩
  · rcases v4_or_v6 hip with ⟨v4, rfl⟩ | ⟨n, front, tail, htext, hlowered, hcolon, -⟩
    · exact readable_v4 hhost hagain hrange
    · have hmem {c : Char} (hc : c ∈ tail) : c ∈ lowercase.lower (Text.stripChars host) := by
        rw [hlowered]
        exact List.mem_append_right _ hc
      refine readable_v6 (hhost ▸ htext) (hlowered ▸ htrimmed) (fun c hc => hstable c (hmem hc))
        (fun c hc => hprintable c (hmem hc)) (fun hsome hc => ?_) hagain hrange
      -- a port behind an IPv6 host was written behind a bracket
      have hcolon' : ':' ∈ lowercase.lower (Text.stripChars host) := by
        rw [hlowered]
        exact List.mem_append_left _ hcolon
      rw [mem_lowered lowercase (by decide) (by decide) (by decide)] at hcolon'
      refine hclosing hsome hcolon' ?_
      rw [← mem_lowered lowercase (by decide) (by decide) (by decide)]
      exact hmem hc
  · rw [String.toList_ofList] at hlabels
    exact readable_name (by rw [hhost, String.toList_ofList]) htrimmed hstable hlabels hagain hrange

end

/-! ## Texts that are too long -/

/-- Only a scope makes the text of an endpoint long. -/
theorem length_text_le {lowercase : Text.LowerCase} {address : String} {endpoint : Endpoint}
    (h : lowercase.dashboardAddressEndpoint address = some endpoint)
    (hscope : '%' ∉ endpoint.host.toList) : endpoint.text.length ≤ 512 := by
  obtain ⟨value, host, port, -, -, hchecked, -⟩ := exists_split h
  have hhost : endpoint.host.toList.length ≤ 253 := by
    rcases checkedHost_some hchecked with ⟨ip, hip, hhost⟩ | ⟨hhost, hlength, -⟩
    · rcases v4_or_v6 hip with ⟨v4, rfl⟩ | ⟨n, front, tail, htext, -, -, htail⟩
      · obtain ⟨-, -, -, -, hlength⟩ := textV4_eq v4.toNat
        rw [hhost, IpAddress.compressed, String.toList_ofList]
        omega
      · rw [hhost, htext] at hscope ⊢
        have hnil : tail = [] := by
          by_contra hne
          exact hscope (List.mem_append_right _ (htail hne))
        have := length_textV6_le n
        rw [hnil, List.append_nil]
        omega
    · rwa [hhost]
  have hdigits : ∀ port ∈ endpoint.port, (Nat.toDigits 10 port).length ≤ 5 := fun port hport =>
    (Nat.length_toDigits_le_iff (by decide) (by decide)).mpr
      (lt_of_le_of_lt ((readable_of_endpoint h).port port hport).2 (by decide))
  rw [← String.length_toList]
  rcases endpoint.text_cases with ⟨-, htext⟩ | ⟨port, hport, -, htext⟩ | ⟨port, hport, -, htext⟩
  · rw [htext]
    omega
  · have := hdigits port hport
    rw [htext]
    simp only [List.cons_append, List.length_cons, List.length_append]
    omega
  · have := hdigits port hport
    rw [htext]
    simp only [List.length_append, List.length_cons]
    omega

/-! ## `normalize_dashboard_address` -/

theorem endpoint_normalized {lowercase : Text.LowerCase} {address normalized : String}
    (h : normalizeDashboardAddress lowercase address = some normalized) :
    lowercase.dashboardAddressEndpoint normalized =
      if normalized.length ≤ 512 then lowercase.dashboardAddressEndpoint address else none := by
  obtain ⟨endpoint, hendpoint, rfl⟩ := Option.map_eq_some_iff.mp h
  rw [endpoint_text (readable_of_endpoint hendpoint), hendpoint]

/-- A normal form that can be read finds the row that the provider's text finds. -/
theorem resolvedObservation_normalized {snapshot : DashboardAssignment} {normalized : String}
    (h : normalizeDashboardAddress Text.lowering snapshot.address = some normalized)
    (hlength : normalized.length ≤ 512) (db : Db) (current : Timestamp) (maxAgeSeconds : Int) :
    resolvedObservation db { snapshot with address := normalized } current maxAgeSeconds =
      resolvedObservation db snapshot current maxAgeSeconds := by
  have hendpoint := endpoint_normalized h
  rw [if_pos hlength, Text.LowerCase.dashboardAddressEndpoint_lowering] at hendpoint
  unfold resolvedObservation
  dsimp only
  rw [hendpoint]

/-- An accepted address has a normal form. It is accepted as the same endpoint, and is its own
normal form, exactly when it has 512 characters at most; only an IPv6 scope makes it longer. -/
theorem normalizeDashboardAddress_again (lowercase : Text.LowerCase) (address : String)
    (endpoint : Endpoint) (h : lowercase.dashboardAddressEndpoint address = some endpoint) :
    ∃ normalized, normalizeDashboardAddress lowercase address = some normalized ∧
      (lowercase.dashboardAddressEndpoint normalized = lowercase.dashboardAddressEndpoint address ↔
        normalized.length ≤ 512) ∧
      (normalizeDashboardAddress lowercase normalized = some normalized ↔ normalized.length ≤ 512) ∧
      ('%' ∉ endpoint.host.toList → normalized.length ≤ 512) := by
  have hnormalized : normalizeDashboardAddress lowercase address = some endpoint.text := by
    rw [normalizeDashboardAddress, h, Option.map_some]
  have hread := endpoint_normalized hnormalized
  refine ⟨endpoint.text, hnormalized, ?_, ?_, length_text_le h⟩
  · rw [hread, h]
    split_ifs with hlength <;> simp [hlength]
  · rw [normalizeDashboardAddress, hread, h]
    split_ifs with hlength <;> simp [hlength]

theorem normalizeDashboardAddress_again_v6 :
    normalizeDashboardAddress Text.lowering "[2001:DB8:0::1]:080" = some "[2001:db8::1]:80" ∧
    Text.lowering.dashboardAddressEndpoint "[2001:db8::1]:80" =
      Text.lowering.dashboardAddressEndpoint "[2001:DB8:0::1]:080" := by
  have hread : Text.lowering.dashboardAddressEndpoint "[2001:DB8:0::1]:080" =
      some { host := "2001:db8::1", port := some 80 } := by decide +kernel
  have hnormalized : normalizeDashboardAddress Text.lowering "[2001:DB8:0::1]:080" =
      some "[2001:db8::1]:80" := by decide +kernel
  obtain ⟨normalized, heq, hsame, -⟩ := normalizeDashboardAddress_again Text.lowering _ _ hread
  obtain rfl := Option.some.inj (hnormalized.symm.trans heq)
  exact ⟨hnormalized, hsame.mpr (by decide)⟩

/-- An address with a scope of `n` letters. -/
def withScope (front : List Char) (n : Nat) : String :=
  String.ofList (front ++ IpAddress.scopeText (some (String.ofList (List.replicate n 'a'))))

theorem toList_withScope (front : List Char) (n : Nat) :
    (withScope front n).toList = front ++ '%' :: List.replicate n 'a' := by
  rw [withScope, IpAddress.scopeText, String.toList_ofList, String.toList_ofList]

theorem scopeOk_replicate {n : Nat} (hn : n ≠ 0) :
    IpAddress.ScopeOk (some (String.ofList (List.replicate n 'a'))) := by
  intro zone hzone
  obtain rfl := Option.some.inj hzone
  rw [String.toList_ofList]
  refine ⟨by simpa using hn, fun hc => ?_, fun hc => ?_⟩ <;>
    exact absurd (List.eq_of_mem_replicate hc) (by decide)

/-- The hextets of an address that has one zero, which is left out. -/
def shortFront : List Char := "1::3:4:5:6:7:8".toList

/-- A single zero that was left out is written out. -/
def longFront : List Char := "1:0:3:4:5:6:7:8".toList

theorem checkedHost_withScope {n : Nat} (hn : n ≠ 0) :
    checkedHost (withScope shortFront n) = some (withScope longFront n) := by
  have hparse : IpAddress.parseV6 shortFront = some 0x10000000300040005000600070008 := by
    decide +kernel
  have htext : IpAddress.textV6 (BitVec.ofNat 128 0x10000000300040005000600070008).toNat =
      longFront := by
    decide +kernel
  have hread := ipAddress_v6 hparse (by decide) (by decide) (scopeOk_replicate hn)
  unfold checkedHost
  rw [withScope, hread]
  dsimp only
  rw [Option.some_inj, ← String.toList_inj, IpAddress.compressed_v6, htext, withScope,
    String.toList_ofList]

theorem endpoint_withScope {n : Nat} (hn : n ≠ 0) (hlength : n ≤ 497) :
    Text.lowering.dashboardAddressEndpoint (withScope shortFront n) =
      some { host := withScope longFront n, port := none } := by
  have hfront : ∀ c ∈ shortFront ++ ['%', 'a'], 32 ≤ c.toNat ∧ Text.isSpace c = false ∧
      Text.lowerChar c = [c] := forall_mem_of_all (by decide)
  have hchars : ∀ c ∈ (withScope shortFront n).toList, 32 ≤ c.toNat ∧ Text.isSpace c = false ∧
      Text.lowerChar c = [c] := by
    intro c hc
    rw [toList_withScope, List.mem_append, List.mem_cons] at hc
    refine hfront c ?_
    rcases hc with hc | rfl | hc
    · exact List.mem_append_left _ hc
    · simp
    · simp [List.eq_of_mem_replicate hc]
  have htrimmed : Text.Trimmed (withScope shortFront n).toList :=
    ⟨fun c hc => (hchars c (List.mem_of_mem_head? hc)).2.1,
      fun c hc => (hchars c (List.mem_of_getLast? hc)).2.1⟩
  have hne : (withScope shortFront n).toList ≠ [] := by simp [toList_withScope]
  have hrequired := requiredText_of_trimmed htrimmed hne (fun c hc => (hchars c hc).1) 512
  have hshort : shortFront.length = 14 := by decide
  rw [if_pos (by rw [toList_withScope]; simp [hshort]; omega), String.ofList_toList] at hrequired
  have hsplit : splitAddress (withScope shortFront n).toList =
      some ((withScope shortFront n).toList, none) := by
    have hhead : (withScope shortFront n).toList.head? ≠ some '[' := by
      rw [toList_withScope]
      exact fun h => absurd (Option.some.inj h) (by decide)
    have hcount : (withScope shortFront n).toList.count ':' ≠ 1 := by
      have hcolons : shortFront.count ':' = 7 := by decide
      rw [toList_withScope, List.count_append, hcolons]
      omega
    unfold splitAddress
    rw [if_neg hhead, if_neg hcount]
  unfold Text.LowerCase.dashboardAddressEndpoint
  rw [hrequired, Option.bind_eq_bind, Option.bind_some, hsplit, Option.bind_eq_bind,
    Option.bind_some]
  dsimp only
  rw [htrimmed.stripChars_eq, Text.lowering.lower_stable _ fun c hc => (hchars c hc).2.2,
    String.ofList_toList, checkedHost_withScope hn]
  rfl

theorem normalizeDashboardAddress_longScope :
    Text.lowering.dashboardAddressEndpoint (withScope shortFront 497) =
      some { host := withScope longFront 497, port := none } ∧
    normalizeDashboardAddress Text.lowering (withScope shortFront 497) =
      some (withScope longFront 497) ∧
    Text.lowering.dashboardAddressEndpoint (withScope longFront 497) = none ∧
    normalizeDashboardAddress Text.lowering (withScope longFront 497) = none := by
  have hread := endpoint_withScope (n := 497) (by decide) (by decide)
  have hnormalized : normalizeDashboardAddress Text.lowering (withScope shortFront 497) =
      some (withScope longFront 497) := by
    rw [normalizeDashboardAddress, hread]
    rfl
  have hlong : ¬ (withScope longFront 497).length ≤ 512 := by
    have hfront : longFront.length = 15 := by decide
    rw [← String.length_toList, toList_withScope, List.length_append, List.length_cons,
      List.length_replicate, hfront]
    decide
  have hrefused := endpoint_normalized hnormalized
  rw [if_neg hlong] at hrefused
  refine ⟨hread, hnormalized, hrefused, ?_⟩
  rw [normalizeDashboardAddress, hrefused]
  rfl

end Swap

end EarnProxy
