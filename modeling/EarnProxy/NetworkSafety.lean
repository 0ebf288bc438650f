import EarnProxy.AddressRoundTrip
import EarnProxy.LowerCase
import Mathlib.Data.Char
import Mathlib.Data.List.Lex
import Mathlib.Data.List.MinMax
import Mathlib.Data.Prod.Lex

/-!
# `app/network_safety.py`

A probe connects to the address that `resolve_public_proxy_host` returns. The resolver is a
parameter, and every name that it is asked for is kept beside the result.
-/

namespace EarnProxy

namespace Text.LowerCase

variable (lowercase : LowerCase)

/-- The first line of `validate_proxy_host`. -/
def normalizedHost (host : List Char) : List Char :=
  (lowercase.lower (stripChars host)).rdropWhile (· = '.')

/-- `validate_proxy_host`. -/
def validateProxyHost (isGlobal : IpAddress → Bool) (host : List Char) :
    Except String (List Char) :=
  checkProxyHost isGlobal (lowercase.normalizedHost host)

end Text.LowerCase

/-- A row of `getaddrinfo`: the first field of `sockaddr`, unless that is empty. -/
structure AddrInfo where
  address : Option (List Char)
  deriving DecidableEq, Repr

/-- A question to the resolver. -/
structure Lookup where
  host : List Char
  port : Int
  deriving DecidableEq, Repr

/-- `socket.getaddrinfo`; the error is the text of an `OSError`. -/
abbrev Resolver := List Char → Int → Except String (List AddrInfo)

/-- The questions that were asked, and what came of them. -/
structure Resolution where
  lookups : List Lookup
  outcome : Except String (List Char)

def addressesOf (rows : List AddrInfo) : List (List Char) := rows.filterMap AddrInfo.address

/-- `ip_address(value).version` of a text that is an address. -/
def versionOf (value : List Char) : Nat :=
  match ipAddress (String.ofList value) with
  | some (.v4 _) => 4
  | some (.v6 _ _) => 6
  | none => 0

/-- The key that the public addresses are sorted by. -/
def addressKey (value : List Char) : ℕ ×ₗ List Char := toLex (versionOf value, value)

section

variable (lowercase : Text.LowerCase) (isGlobal : IpAddress → Bool)

/-- What `resolve_public_proxy_host` makes of an answer. -/
def pinnedAddress (answer : Except String (List AddrInfo)) : Except String (List Char) :=
  match answer with
  | .error e => .error s!"Proxy host cannot be resolved: {e}"
  | .ok rows =>
    if addressesOf rows = [] then .error "Proxy host returned no usable DNS addresses"
    else
      match (addressesOf rows).mapM (publicIp isGlobal) with
      | .error e => .error e
      | .ok addresses =>
        match addresses.argmin addressKey with
        | some first => .ok first
        | none => .error "list index out of range"

/-- `resolve_public_proxy_host`. -/
def resolvePublicProxyHost (resolver : Resolver) (host : List Char) (port : Int) : Resolution :=
  match lowercase.validateProxyHost isGlobal host with
  | .error e => ⟨[], .error e⟩
  | .ok normalized =>
    match ipAddress (String.ofList normalized) with
    | some literal => ⟨[], publicIp isGlobal literal.compressed.toList⟩
    | none => ⟨[⟨normalized, port⟩], pinnedAddress isGlobal (resolver normalized port)⟩

end

/-! ## Public addresses -/

/-- The canonical text of a global address. -/
def IsPublicText (isGlobal : IpAddress → Bool) (value : List Char) : Prop :=
  ∃ address, ipAddress (String.ofList value) = some address ∧ isGlobal address ∧
    value = address.compressed.toList

/-- The address that a text of an answer means. -/
def readAddress (text : List Char) : Option IpAddress :=
  ipAddress (String.ofList (Text.stripChars text))

section

variable {isGlobal : IpAddress → Bool}

theorem publicIp_ok_iff {text value : List Char} : publicIp isGlobal text = .ok value ↔
    ∃ address, readAddress text = some address ∧ isGlobal address ∧
      value = address.compressed.toList := by
  unfold publicIp readAddress
  cases ipAddress (String.ofList (Text.stripChars text)) with
  | none => simp
  | some address =>
    dsimp only
    split
    · rename_i hglobal
      constructor
      · intro h
        exact ⟨address, rfl, hglobal, (Except.ok.inj h).symm⟩
      · rintro ⟨_, heq, -, rfl⟩
        rw [Option.some.inj heq]
    · rename_i hglobal
      refine iff_of_false (fun h => by cases h) ?_
      rintro ⟨_, heq, h, -⟩
      exact hglobal (Option.some.inj heq ▸ h)

theorem isPublicText_of_publicIp {text value : List Char} (h : publicIp isGlobal text = .ok value) :
    IsPublicText isGlobal value := by
  obtain ⟨address, hread, hglobal, rfl⟩ := publicIp_ok_iff.mp h
  refine ⟨address, ?_, hglobal, rfl⟩
  rw [String.ofList_toList]
  exact ipAddress_compressed hread

/-- The results of a loop that went through are those of its rounds. -/
theorem mem_of_mapM {α β ε : Type} {f : α → Except ε β} {xs : List α} {ys : List β}
    (h : xs.mapM f = .ok ys) :
    (∀ x ∈ xs, ∃ y ∈ ys, f x = .ok y) ∧ ∀ y ∈ ys, ∃ x ∈ xs, f x = .ok y := by
  induction xs generalizing ys with
  | nil =>
    obtain rfl := Except.ok.inj h
    exact ⟨by simp, by simp⟩
  | cons x xs ih =>
    rw [List.mapM_cons] at h
    cases hx : f x with
    | error e => rw [hx] at h; cases h
    | ok y =>
      cases hxs : xs.mapM f with
      | error e => rw [hx, hxs] at h; cases h
      | ok zs =>
        rw [hx, hxs] at h
        obtain rfl := Except.ok.inj h
        obtain ⟨hleft, hright⟩ := ih hxs
        constructor
        · rintro w (_ | ⟨_, hw⟩)
          · exact ⟨y, List.mem_cons_self, hx⟩
          · obtain ⟨z, hz, hwz⟩ := hleft w hw
            exact ⟨z, List.mem_cons_of_mem y hz, hwz⟩
        · rintro z (_ | ⟨_, hz⟩)
          · exact ⟨x, List.mem_cons_self, hx⟩
          · obtain ⟨w, hw, hwz⟩ := hright z hz
            exact ⟨w, List.mem_cons_of_mem x hw, hwz⟩

theorem exists_mapM {α β ε : Type} {f : α → Except ε β} {xs : List α}
    (h : ∀ x ∈ xs, ∃ y, f x = .ok y) : ∃ ys, xs.mapM f = .ok ys := by
  induction xs with
  | nil => exact ⟨[], rfl⟩
  | cons x xs ih =>
    obtain ⟨⟨y, hy⟩, hxs⟩ := List.forall_mem_cons.mp h
    obtain ⟨ys, hys⟩ := ih hxs
    exact ⟨y :: ys, by rw [List.mapM_cons, hy, hys]; rfl⟩

theorem addressKey_injective : Function.Injective addressKey := fun _ _ h =>
  (Prod.mk.inj (toLex.injective h)).2

/-- An answer all of whose addresses are global, and the first of them. -/
structure PinnedFrom (isGlobal : IpAddress → Bool) (rows : List AddrInfo) (value : List Char) :
    Prop where
  global : ∀ text ∈ addressesOf rows, ∃ address, readAddress text = some address ∧ isGlobal address
  resolved : ∃ text ∈ addressesOf rows, ∃ address, readAddress text = some address ∧
    value = address.compressed.toList
  least : ∀ text ∈ addressesOf rows, ∀ address, readAddress text = some address →
    addressKey value ≤ addressKey address.compressed.toList

theorem PinnedFrom.congr {rows rows' : List AddrInfo} {value : List Char}
    (h : PinnedFrom isGlobal rows value)
    (hsame : ∀ text, text ∈ addressesOf rows' ↔ text ∈ addressesOf rows) :
    PinnedFrom isGlobal rows' value where
  global := fun text htext => h.global text ((hsame text).mp htext)
  resolved := by
    obtain ⟨text, htext, haddress⟩ := h.resolved
    exact ⟨text, (hsame text).mpr htext, haddress⟩
  least := fun text htext => h.least text ((hsame text).mp htext)

/-- The address is pinned by the set of addresses alone. -/
theorem pinnedAddress_ok_iff {rows : List AddrInfo} {value : List Char} :
    pinnedAddress isGlobal (.ok rows) = .ok value ↔ PinnedFrom isGlobal rows value := by
  unfold pinnedAddress
  dsimp only
  constructor
  · intro h
    obtain ⟨hne, h⟩ := ok_of_if h
    split at h
    · cases h
    rename_i addresses hmapM
    split at h
    swap
    · cases h
    rename_i first hfirst
    obtain rfl := Except.ok.inj h
    obtain ⟨hread, hwritten⟩ := mem_of_mapM hmapM
    obtain ⟨hmem, hle, -⟩ := List.argmin_eq_some_iff.mp hfirst
    refine ⟨fun text htext => ?_, ?_, fun text htext address haddress => ?_⟩
    · obtain ⟨_, -, hvalue⟩ := hread text htext
      obtain ⟨address, haddress, hglobal, -⟩ := publicIp_ok_iff.mp hvalue
      exact ⟨address, haddress, hglobal⟩
    · obtain ⟨text, htext, hvalue⟩ := hwritten first hmem
      obtain ⟨address, haddress, -, heq⟩ := publicIp_ok_iff.mp hvalue
      exact ⟨text, htext, address, haddress, heq⟩
    · obtain ⟨_, hvalue, htext⟩ := hread text htext
      obtain ⟨address', haddress', -, rfl⟩ := publicIp_ok_iff.mp htext
      obtain rfl := Option.some.inj (haddress.symm.trans haddress')
      exact hle _ hvalue
  · intro h
    obtain ⟨text, htext, address, haddress, hvalue⟩ := h.resolved
    have hpublic : ∀ text ∈ addressesOf rows, ∃ value, publicIp isGlobal text = .ok value := by
      intro text htext
      obtain ⟨address, hread, hglobal⟩ := h.global text htext
      exact ⟨_, publicIp_ok_iff.mpr ⟨address, hread, hglobal, rfl⟩⟩
    obtain ⟨addresses, hmapM⟩ := exists_mapM hpublic
    obtain ⟨hread, hwritten⟩ := mem_of_mapM hmapM
    have hmem : value ∈ addresses := by
      obtain ⟨_, hy, hok⟩ := hread text htext
      obtain ⟨address', haddress', -, rfl⟩ := publicIp_ok_iff.mp hok
      obtain rfl := Option.some.inj (haddress.symm.trans haddress')
      rwa [hvalue]
    have hleast : ∀ w ∈ addresses, addressKey value ≤ addressKey w := by
      intro w hw
      obtain ⟨other, hother, hok⟩ := hwritten w hw
      obtain ⟨address', haddress', -, rfl⟩ := publicIp_ok_iff.mp hok
      exact h.least other hother address' haddress'
    have hfirst : addresses.argmin addressKey = some value := by
      cases hargmin : addresses.argmin addressKey with
      | none =>
        rw [List.argmin_eq_none.mp hargmin] at hmem
        cases hmem
      | some first =>
        obtain ⟨hfirst, hle, -⟩ := List.argmin_eq_some_iff.mp hargmin
        rw [addressKey_injective (le_antisymm (hle value hmem) (hleast first hfirst))]
    rw [if_neg (List.ne_nil_of_mem htext), hmapM]
    dsimp only
    rw [hfirst]

end

/-! ## Numbers and dots -/

/-- A number of an address for `inet_aton`: decimal or octal digits, or hexadecimal ones. -/
def IsInetNumber (part : List Char) : Prop :=
  part ≠ [] ∧ (∀ c ∈ part, IpAddress.isDecimal c) ∨
    ∃ x digits, part = '0' :: x :: digits ∧ (x = 'x' ∨ x = 'X') ∧ digits ≠ [] ∧
      ∀ c ∈ digits, (IpAddress.hexDigit? c).isSome

/-- `isspace` of the C locale. -/
def IsCSpace (c : Char) : Prop := 9 ≤ c.toNat ∧ c.toNat ≤ 13 ∨ c.toNat = 32

/-- A text that `inet_aton` reads: up to four numbers, and anything behind a blank. Dots at the end
are let pass here, and the numbers are not bounded. -/
def IsInetAton (text : List Char) : Prop :=
  ∃ parts dots tail, text = ['.'].intercalate parts ++ List.replicate dots '.' ++ tail ∧
    parts ≠ [] ∧ parts.length ≤ 4 ∧ (∀ part ∈ parts, IsInetNumber part) ∧
    ∀ c ∈ tail.head?, IsCSpace c

/-- The characters of numbers and dots. -/
def IsInetChar (c : Char) : Prop :=
  c = '.' ∨ c = 'x' ∨ c = 'X' ∨ (IpAddress.hexDigit? c).isSome

theorem hexDigit?_of_isDecimal {c : Char} (h : IpAddress.isDecimal c) :
    (IpAddress.hexDigit? c).isSome := by
  unfold IpAddress.hexDigit?
  rw [if_pos h]
  rfl

theorem toNat_of_hexDigit {c : Char} (h : (IpAddress.hexDigit? c).isSome) : c.toNat < 128 := by
  unfold IpAddress.hexDigit? IpAddress.isDecimal at h
  simp only [Bool.and_eq_true, decide_eq_true_eq, Char.le_def, UInt32.le_iff_toNat_le] at h
  change c.val.toNat < 128
  split_ifs at h with h1 h2 h3
  · exact Nat.lt_of_le_of_lt h1.2 (by decide)
  · exact Nat.lt_of_le_of_lt h2.2 (by decide)
  · exact Nat.lt_of_le_of_lt h3.2 (by decide)
  · cases h

/-- A fact about ASCII, checked character by character. -/
theorem forall_ascii {P : Char → Prop} (h : ∀ n : Fin 128, P (Char.ofNat n)) {c : Char}
    (hc : c.toNat < 128) : P c := by
  have hP := h ⟨c.toNat, hc⟩
  rwa [Char.ofNat_toNat] at hP

theorem IsInetChar.ascii {c : Char} (h : IsInetChar c) : c.toNat < 128 := by
  rcases h with rfl | rfl | rfl | h
  · decide
  · decide
  · decide
  · exact toNat_of_hexDigit h

theorem IsInetNumber.chars {part : List Char} (h : IsInetNumber part) {c : Char} (hc : c ∈ part) :
    c ≠ '.' ∧ IsInetChar c := by
  have hhex : (IpAddress.hexDigit? c).isSome → c ≠ '.' ∧ IsInetChar c := fun hhex => by
    refine ⟨?_, .inr (.inr (.inr hhex))⟩
    rintro rfl
    exact absurd hhex (by decide)
  rcases h with ⟨-, hdigits⟩ | ⟨x, digits, rfl, hx, -, hdigits⟩
  · exact hhex (hexDigit?_of_isDecimal (hdigits c hc))
  · rcases List.mem_cons.mp hc with rfl | hc
    · exact hhex (by decide)
    rcases List.mem_cons.mp hc with rfl | hc
    · rcases hx with rfl | rfl
      · exact ⟨by decide, .inr (.inl rfl)⟩
      · exact ⟨by decide, .inr (.inr (.inl rfl))⟩
    · exact hhex (hdigits c hc)

theorem IsInetNumber.ne_nil {part : List Char} (h : IsInetNumber part) : part ≠ [] := by
  rcases h with ⟨hne, -⟩ | ⟨x, digits, rfl, -⟩
  · exact hne
  · exact List.cons_ne_nil _ _

theorem IsInetNumber.lower {part : List Char} (h : IsInetNumber part) :
    IsInetNumber (part.map Char.toLower) := by
  have hhex {c : Char} (hc : (IpAddress.hexDigit? c).isSome) :
      (IpAddress.hexDigit? c.toLower).isSome :=
    forall_ascii
      (P := fun c => (IpAddress.hexDigit? c).isSome → (IpAddress.hexDigit? c.toLower).isSome)
      (by decide) (toNat_of_hexDigit hc) hc
  have hdecimal {c : Char} (hc : IpAddress.isDecimal c) : IpAddress.isDecimal c.toLower :=
    forall_ascii (P := fun c => IpAddress.isDecimal c → IpAddress.isDecimal c.toLower)
      (by decide) (toNat_of_hexDigit (hexDigit?_of_isDecimal hc)) hc
  rcases h with ⟨hne, hdigits⟩ | ⟨x, digits, rfl, hx, hne, hdigits⟩
  · exact .inl ⟨by simpa using hne, List.forall_mem_map.mpr fun c hc => hdecimal (hdigits c hc)⟩
  · refine .inr ⟨'x', digits.map Char.toLower, ?_, .inl rfl, by simpa using hne,
      List.forall_mem_map.mpr fun c hc => hhex (hdigits c hc)⟩
    have hx' : x.toLower = 'x' := by rcases hx with rfl | rfl <;> decide
    rw [List.map_cons, List.map_cons, hx']
    rfl

/-- In lower case, `_LEGACY_NUMERIC_HOST` matches a number. -/
theorem IsInetNumber.legacy {part : List Char} (h : IsInetNumber part) (hX : 'X' ∉ part) :
    isLegacyNumeric part := by
  unfold isLegacyNumeric
  rw [Bool.or_eq_true]
  rcases h with ⟨hne, hdigits⟩ | ⟨x, digits, rfl, hx, hne, hdigits⟩
  · right
    simpa [hne] using hdigits
  · left
    obtain rfl : x = 'x' := hx.resolve_right fun h => hX (by simp [h])
    simpa [hne] using hdigits

theorem map_intercalate {α β : Type} (f : α → β) (sep : List α) (parts : List (List α)) :
    (sep.intercalate parts).map f = (sep.map f).intercalate (parts.map (List.map f)) := by
  induction parts with
  | nil => simp [List.intercalate_nil]
  | cons part parts ih =>
    cases parts with
    | nil => simp [List.intercalate_singleton]
    | cons next parts =>
      rw [List.intercalate_cons_cons, List.map_append, List.map_append, ih, List.map_cons,
        List.map_cons, List.map_cons, List.intercalate_cons_cons]

/-- A text of parts does not end in a dot. -/
theorem getLast?_intercalate {parts : List (List Char)}
    (h : ∀ part ∈ parts, part ≠ [] ∧ '.' ∉ part) :
    (['.'].intercalate parts).getLast? ≠ some '.' := by
  induction parts with
  | nil => simp [List.intercalate_nil]
  | cons part parts ih =>
    obtain ⟨⟨hne, hdot⟩, hrest⟩ := List.forall_mem_cons.mp h
    cases parts with
    | nil =>
      rw [List.intercalate_singleton]
      exact fun hlast => hdot (List.mem_of_getLast? hlast)
    | cons next parts =>
      have hnext : ['.'].intercalate (next :: parts) ≠ [] := by
        have hne := (hrest next List.mem_cons_self).1
        cases parts with
        | nil => rwa [List.intercalate_singleton]
        | cons => simp [List.intercalate_cons_cons]
      rw [List.intercalate_cons_cons, List.getLast?_append_of_ne_nil _ hnext]
      exact ih hrest

theorem rdropWhile_dots {cs : List Char} (h : cs.getLast? ≠ some '.') (dots : Nat) :
    (cs ++ List.replicate dots '.').rdropWhile (· = '.') = cs := by
  induction dots with
  | zero =>
    rw [List.replicate_zero, List.append_nil]
    refine List.rdropWhile_eq_self_iff.mpr fun hne hdot => h ?_
    rw [List.getLast?_eq_some_getLast hne, of_decide_eq_true hdot]
  | succ dots ih =>
    rw [List.replicate_succ', ← List.append_assoc, List.rdropWhile_concat_pos _ _ _ (by simp), ih]

theorem rdropWhile_behind {p : Char → Bool} {c : Char} (hc : ¬ p c) (front rest : List Char) :
    (front ++ c :: rest).rdropWhile p = front ++ c :: rest.rdropWhile p := by
  induction rest using List.reverseRecOn with
  | nil => rw [List.rdropWhile_concat_neg _ _ _ hc, List.rdropWhile_nil]
  | append_singleton rest d ih =>
    rw [← List.cons_append, ← List.append_assoc]
    by_cases hd : p d
    · rw [List.rdropWhile_concat_pos _ _ _ hd, List.rdropWhile_concat_pos _ _ _ hd, ih]
    · rw [List.rdropWhile_concat_neg _ _ _ hd, List.rdropWhile_concat_neg _ _ _ hd]
      simp

section

variable {isGlobal : IpAddress → Bool} {normalized value : List Char}

theorem IsCSpace.isSpace {c : Char} (h : IsCSpace c) : Text.isSpace c := by
  unfold IsCSpace at h
  unfold Text.isSpace
  dsimp only
  generalize c.toNat = n at h ⊢
  simp
  omega

theorem IsInetChar.not_space {c : Char} (h : IsInetChar c) : Text.isSpace c = false :=
  forall_ascii (P := fun c => (c = '.' ∨ c = 'x' ∨ c = 'X' ∨ (IpAddress.hexDigit? c).isSome) →
    Text.isSpace c = false) (by decide) h.ascii h

/-- A host with a blank in it is accepted in no form. -/
theorem not_checkProxyHost_space {front rest : List Char} {c : Char} (hc : Text.isSpace c)
    (hfront : '%' ∉ front) : checkProxyHost isGlobal (front ++ c :: rest) ≠ .ok value := by
  intro h
  have hmem : c ∈ front ++ c :: rest := by simp
  have hplain : ¬ IsPlainHostChar c := fun hplain => by
    rw [hplain.facts.1] at hc
    cases hc
  have hne {d : Char} (hd : Text.isSpace d = false) : c ≠ d := fun h => by
    rw [h, hd] at hc
    cases hc
  rcases checkProxyHost_ok h with ⟨address, text, haddress, -, -⟩ | ⟨-, -, hlabels⟩
  · unfold ipAddress at haddress
    rw [String.toList_ofList] at haddress
    dsimp only at haddress
    split at haddress
    · rename_i hvalue
      rcases IpAddress.parseV4_chars hvalue hmem with hdot | hdigit
      · exact hplain (.inr (.inr (.inr hdot)))
      · exact hplain (plainHostChar_of_digit hdigit)
    · split_ifs at haddress
      obtain ⟨⟨text, scope⟩, hscope, haddress⟩ := Option.bind_eq_some_iff.mp haddress
      obtain ⟨n, hn, -⟩ := Option.bind_eq_some_iff.mp haddress
      obtain ⟨parts, hparts, -⟩ := Option.bind_eq_some_iff.mp hn
      -- the blank stands in front of the scope
      have hctext : c ∈ text := by
        have hpos : ∀ d ∈ front, decide (d ≠ '%') = true := fun d hd =>
          decide_eq_true fun h => hfront (h ▸ hd)
        have hpercent : c ≠ '%' := hne (by decide)
        rw [IpAddress.splitScope_front hscope, List.takeWhile_append_of_pos hpos,
          List.takeWhile_cons]
        simp [hpercent]
      rcases IpAddress.v6Parts_chars hparts hctext with hcolon | hdot | hdigit | hhex
      · exact hne (by decide) hcolon
      · exact hplain (.inr (.inr (.inr hdot)))
      · exact hplain (plainHostChar_of_digit hdigit)
      · exact hne (IsInetChar.not_space (.inr (.inr (.inr hhex)))) rfl
  · rcases mem_splitOn '.' hmem with hdot | ⟨label, hlabel, hc⟩
    · exact hplain (.inr (.inr (.inr hdot)))
    · have hchar := isProxyLabel_chars (hlabels label hlabel) hc
      exact hplain (hchar.imp id (Or.imp id .inl))

theorem not_legacy_of_check (h : checkProxyHost isGlobal normalized = .ok value)
    (hname : ipAddress (String.ofList normalized) = none) :
    ¬ ∀ part ∈ normalized.splitOn '.', isLegacyNumeric part := by
  intro hall
  unfold checkProxyHost at h
  obtain ⟨-, h⟩ := ok_of_if h
  rw [hname] at h
  obtain ⟨hlegacy, -⟩ := ok_of_if h
  by_cases hdot : '.' ∈ normalized
  · exact hlegacy (.inr ⟨hdot, List.all_eq_true.mpr hall⟩)
  · rw [List.splitOn_eq_singleton hdot] at hall
    exact hlegacy (.inl (hall normalized (List.mem_singleton_self normalized)))

/-- The text of an IPv4 address is read as it is. -/
theorem readAddress_v4 (address : BitVec 32) :
    readAddress (IpAddress.v4 address).compressed.toList = some (.v4 address) := by
  have hplain : Text.stripChars (IpAddress.v4 address).compressed.toList =
      (IpAddress.v4 address).compressed.toList := by
    rw [IpAddress.compressed, String.toList_ofList]
    exact stripChars_plain fun c hc => plain_textV4 hc
  rw [readAddress, hplain, String.ofList_toList, ipAddress_v4]

/-- Numbers and dots are refused, unless they are the text of a global address. -/
theorem checkProxyHost_numbers {parts : List (List Char)} (hne : parts ≠ [])
    (hparts : ∀ part ∈ parts, isLegacyNumeric part ∧ ∀ c ∈ part, c ≠ '.' ∧ IsInetChar c)
    (h : checkProxyHost isGlobal (['.'].intercalate parts) = .ok value) :
    ∃ address : BitVec 32, isGlobal (.v4 address) ∧ value = IpAddress.textV4 address.toNat ∧
      ['.'].intercalate parts = value := by
  have hsplit : (['.'].intercalate parts).splitOn '.' = parts :=
    List.splitOn_intercalate '.' (fun part hpart hdot => ((hparts part hpart).2 '.' hdot).1 rfl) hne
  have hcolon : ':' ∉ ['.'].intercalate parts := by
    intro hcolon
    rcases mem_intercalate hcolon with h | ⟨part, hpart, hc⟩
    · cases h
    · rcases ((hparts part hpart).2 ':' hc).2 with h | h | h | h <;> exact absurd h (by decide)
  rcases checkProxyHost_ok h with ⟨address, text, haddress, hpublic, rfl⟩ | ⟨-, hname, -⟩
  · unfold ipAddress at haddress
    rw [String.toList_ofList] at haddress
    dsimp only at haddress
    split at haddress
    · rename_i n hn
      obtain ⟨hlt, htext⟩ := IpAddress.eq_textV4_of_parseV4 hn
      obtain rfl := Option.some.inj haddress
      obtain ⟨address, hread, hglobal, -⟩ := publicIp_ok_iff.mp hpublic
      rw [readAddress_v4] at hread
      obtain rfl := Option.some.inj hread
      refine ⟨_, hglobal, by rw [IpAddress.compressed, String.toList_ofList], ?_⟩
      rw [IpAddress.compressed, String.toList_ofList, htext, BitVec.toNat_ofNat,
        Nat.mod_eq_of_lt hlt]
    · split_ifs at haddress
      obtain ⟨⟨text, scope⟩, hscope, haddress⟩ := Option.bind_eq_some_iff.mp haddress
      obtain ⟨n, hn, -⟩ := Option.bind_eq_some_iff.mp haddress
      obtain ⟨v6, hv6, -⟩ := Option.bind_eq_some_iff.mp hn
      refine absurd ?_ hcolon
      rw [IpAddress.splitScope_eq hscope]
      exact List.mem_append_left _ (IpAddress.colon_mem_of_v6Parts hv6)
  · refine absurd (fun part hpart => ?_) (not_legacy_of_check h hname)
    rw [hsplit] at hpart
    exact (hparts part hpart).1

end

/-! ## `inet_aton` -/

section

variable {parts : List (List Char)}

theorem inetChars (hparts : ∀ part ∈ parts, IsInetNumber part) (dots : Nat) :
    ∀ c ∈ ['.'].intercalate parts ++ List.replicate dots '.', IsInetChar c := by
  intro c hc
  rcases List.mem_append.mp hc with hc | hc
  · rcases mem_intercalate hc with hdot | ⟨part, hpart, hc⟩
    · exact .inl hdot
    · exact ((hparts part hpart).chars hc).2
  · exact .inl (List.eq_of_mem_replicate hc)

theorem intercalate_ne_nil (hne : parts ≠ []) (hparts : ∀ part ∈ parts, part ≠ []) :
    ['.'].intercalate parts ≠ [] := by
  obtain ⟨part, rest, rfl⟩ := List.exists_cons_of_ne_nil hne
  have hpart := hparts part List.mem_cons_self
  cases rest with
  | nil => rwa [List.intercalate_singleton]
  | cons => simp [List.intercalate_cons_cons]

end

/-- What is dropped behind a text that ends otherwise. -/
theorem rdropWhile_append {p : Char → Bool} {front : List Char} (hfront : ∀ c ∈ front, p c = false)
    (rest : List Char) :
    ∃ rest', (front ++ rest).rdropWhile p = front ++ rest' ∧ rest' <+: rest := by
  induction rest using List.reverseRecOn with
  | nil =>
    refine ⟨[], ?_, List.nil_prefix⟩
    rw [List.append_nil, List.rdropWhile_eq_self_iff]
    intro hne
    rw [hfront _ (List.getLast_mem hne)]
    exact Bool.false_ne_true
  | append_singleton rest d ih =>
    rw [← List.append_assoc]
    by_cases hd : p d
    · obtain ⟨rest', heq, hprefix⟩ := ih
      exact ⟨rest', by rw [List.rdropWhile_concat_pos _ _ _ hd, heq],
        hprefix.trans (List.prefix_append rest [d])⟩
    · exact ⟨rest ++ [d], by rw [List.rdropWhile_concat_neg _ _ _ hd, List.append_assoc],
        List.prefix_rfl⟩

theorem IsInetAton.strip {text : List Char} (h : IsInetAton text) :
    IsInetAton (Text.stripChars text) := by
  obtain ⟨parts, dots, tail, rfl, hne, hlength, hparts, htail⟩ := h
  have hspace : ∀ c ∈ ['.'].intercalate parts ++ List.replicate dots '.', Text.isSpace c = false :=
    fun c hc => (inetChars hparts dots c hc).not_space
  obtain ⟨first, rest, hfront⟩ := List.exists_cons_of_ne_nil
    (List.append_ne_nil_of_left_ne_nil (intercalate_ne_nil hne fun part hpart =>
      (hparts part hpart).ne_nil) (List.replicate dots '.'))
  obtain ⟨tail', hstrip, hprefix⟩ := rdropWhile_append hspace tail
  refine ⟨parts, dots, tail', ?_, hne, hlength, hparts, fun c hc => htail c ?_⟩
  · rw [← hstrip, Text.stripChars, hfront, List.cons_append,
      List.dropWhile_cons_of_neg
        (by rw [hspace first (by rw [hfront]; simp)]; exact Bool.false_ne_true)]
    rfl
  · obtain ⟨more, rfl⟩ := hprefix
    rw [List.head?_append, Option.mem_def.mp hc]
    rfl

section

variable (lowercase : Text.LowerCase) {isGlobal : IpAddress → Bool} {host value : List Char}

/-- Of numbers and dots, lower case leaves the text of an address alone. -/
theorem map_toLower_eq {text : List Char} (htext : ∀ c ∈ text, IsInetChar c)
    (hdigits : ∀ c ∈ text.map Char.toLower, c = '.' ∨ IpAddress.isDecimal c) :
    text.map Char.toLower = text := by
  refine (List.map_congr_left fun c hc => ?_).trans (List.map_id text)
  exact forall_ascii
    (P := fun c => (c.toLower = '.' ∨ IpAddress.isDecimal c.toLower) → c.toLower = c)
    (by decide) (htext c hc).ascii (hdigits _ (List.mem_map_of_mem hc))

theorem validateProxyHost_inetAton (hhost : IsInetAton host)
    (h : lowercase.validateProxyHost isGlobal host = .ok value) :
    ∃ address : BitVec 32, ∃ dots, isGlobal (.v4 address) ∧
      value = IpAddress.textV4 address.toNat ∧
      Text.stripChars host = value ++ List.replicate dots '.' := by
  obtain ⟨parts, dots, tail, hstrip, hne, -, hparts, htail⟩ := hhost.strip
  have hchars := inetChars hparts dots
  unfold Text.LowerCase.validateProxyHost Text.LowerCase.normalizedHost at h
  rw [hstrip] at h ⊢
  generalize hfront : ['.'].intercalate parts ++ List.replicate dots '.' = front at h hchars ⊢
  cases tail with
  | cons c rest =>
    have hspace := (htail c rfl).isSpace
    have hdot : ¬ decide (c = '.') = true := by
      rw [decide_eq_true_eq]
      rintro rfl
      exact absurd hspace (by decide)
    rw [lowercase.lower_space _ _ _ hspace, rdropWhile_behind hdot] at h
    refine absurd h (not_checkProxyHost_space hspace ?_)
    rw [lowercase.mem_lower _ _ (by decide) (by decide)]
    intro hpercent
    rcases hchars _ hpercent with h | h | h | h <;> exact absurd h (by decide)
  | nil =>
    rw [List.append_nil] at h ⊢
    have hlower : front.map Char.toLower =
        ['.'].intercalate (parts.map (List.map Char.toLower)) ++ List.replicate dots '.' := by
      rw [← hfront, List.map_append, map_intercalate, List.map_replicate]
      rfl
    have hlowered : ∀ part ∈ parts.map (List.map Char.toLower), IsInetNumber part ∧ 'X' ∉ part := by
      intro lowered hlowered
      obtain ⟨part, hpart, rfl⟩ := List.mem_map.mp hlowered
      refine ⟨(hparts part hpart).lower, fun hX => ?_⟩
      obtain ⟨c, hc, heq⟩ := List.mem_map.mp hX
      exact forall_ascii (P := fun c => c.toLower ≠ 'X') (by decide)
        ((hparts part hpart).chars hc).2.ascii heq
    have hlast := getLast?_intercalate fun part hpart =>
      ⟨(hlowered part hpart).1.ne_nil, fun hdot => ((hlowered part hpart).1.chars hdot).1 rfl⟩
    rw [lowercase.lower_ascii _ fun c hc => (hchars c hc).ascii, hlower, rdropWhile_dots hlast] at h
    obtain ⟨address, hglobal, hvalue, heq⟩ :=
      checkProxyHost_numbers (by simpa using hne)
        (fun part hpart => ⟨(hlowered part hpart).1.legacy (hlowered part hpart).2,
          fun c => (hlowered part hpart).1.chars⟩) h
    refine ⟨address, dots, hglobal, hvalue, ?_⟩
    rw [← heq, ← hlower, map_toLower_eq hchars]
    intro c hc
    rw [hlower, heq, hvalue] at hc
    rcases List.mem_append.mp hc with hc | hc
    · exact IpAddress.textV4_digits hc
    · exact .inl (List.eq_of_mem_replicate hc)

/-- A name that was accepted is none that `inet_aton` reads. -/
theorem not_inetAton_of_check {normalized : List Char}
    (h : checkProxyHost isGlobal normalized = .ok value)
    (hname : ipAddress (String.ofList normalized) = none) : ¬ IsInetAton value := by
  rcases checkProxyHost_ok h with ⟨address, text, haddress, -, -⟩ | ⟨rfl, -, hlabels⟩
  · rw [hname] at haddress
    cases haddress
  rintro ⟨parts, dots, tail, rfl, hne, -, hparts, htail⟩
  cases tail with
  | cons c rest =>
    refine absurd h (not_checkProxyHost_space (htail c rfl).isSpace fun hpercent => ?_)
    rcases inetChars hparts dots _ hpercent with h | h | h | h <;> exact absurd h (by decide)
  | nil =>
    rw [List.append_nil] at h hname hlabels
    cases dots with
    | succ dots =>
      -- behind the last dot there is an empty label
      rw [List.replicate_succ', ← List.append_assoc, List.splitOn_append_cons_self] at hlabels
      exact absurd (hlabels [] (by simp)) (by decide)
    | zero =>
      rw [List.replicate_zero, List.append_nil] at h hname hlabels
      have hsplit : (['.'].intercalate parts).splitOn '.' = parts :=
        List.splitOn_intercalate '.' (fun part hpart hdot => ((hparts part hpart).chars hdot).1 rfl)
          hne
      refine not_legacy_of_check h hname fun part hpart => ?_
      rw [hsplit] at hlabels hpart
      refine (hparts part hpart).legacy fun hX => ?_
      rcases isProxyLabel_chars (hlabels part hpart) hX with h | h | h <;>
        exact absurd h (by decide)

end

/-! ## `resolve_public_proxy_host` -/

section

variable {isGlobal : IpAddress → Bool} {normalized value : List Char}

/-- A host is accepted as a name, or as the text of an address. -/
theorem name_of_check (h : checkProxyHost isGlobal normalized = .ok value)
    (hvalue : ipAddress (String.ofList value) = none) :
    value = normalized ∧ ipAddress (String.ofList normalized) = none := by
  rcases checkProxyHost_ok h with ⟨address, text, haddress, -, rfl⟩ | ⟨rfl, hname, -⟩
  · rw [String.ofList_toList, ipAddress_compressed haddress] at hvalue
    cases hvalue
  · exact ⟨rfl, hname⟩

theorem isPublicText_of_pinned {rows : List AddrInfo} (h : PinnedFrom isGlobal rows value) :
    IsPublicText isGlobal value := by
  obtain ⟨text, htext, address, hread, hvalue⟩ := h.resolved
  obtain ⟨address', hread', hglobal⟩ := h.global text htext
  obtain rfl := Option.some.inj (hread.symm.trans hread')
  exact isPublicText_of_publicIp (publicIp_ok_iff.mpr ⟨address, hread, hglobal, hvalue⟩)

/-- An answer without an error. -/
theorem exists_rows_of_pinned {answer : Except String (List AddrInfo)}
    (h : pinnedAddress isGlobal answer = .ok value) :
    ∃ rows, answer = .ok rows ∧ PinnedFrom isGlobal rows value := by
  cases answer with
  | error e => cases h
  | ok rows => exact ⟨rows, rfl, pinnedAddress_ok_iff.mp h⟩

variable (lowercase : Text.LowerCase) (resolver : Resolver) (host : List Char) (port : Int)

/-- A run that goes through reads a literal or asks for a name. -/
theorem resolvePublicProxyHost_ok
    (h : (resolvePublicProxyHost lowercase isGlobal resolver host port).outcome = .ok value) :
    (∃ address, ipAddress (String.ofList (lowercase.normalizedHost host)) = some address ∧
      publicIp isGlobal address.compressed.toList = .ok value) ∨
    ipAddress (String.ofList (lowercase.normalizedHost host)) = none ∧
      pinnedAddress isGlobal (resolver (lowercase.normalizedHost host) port) = .ok value ∧
      lowercase.validateProxyHost isGlobal host = .ok (lowercase.normalizedHost host) := by
  unfold resolvePublicProxyHost at h
  cases hvalid : lowercase.validateProxyHost isGlobal host with
  | error e =>
    rw [hvalid] at h
    cases h
  | ok checked =>
    rw [hvalid] at h
    dsimp only at h
    cases hchecked : ipAddress (String.ofList checked) with
    | none =>
      rw [hchecked] at h
      obtain ⟨rfl, hname⟩ := name_of_check hvalid hchecked
      exact .inr ⟨hname, h, rfl⟩
    | some literal =>
      rw [hchecked] at h
      dsimp only at h
      rcases checkProxyHost_ok hvalid with ⟨address, text, haddress, -, rfl⟩ | ⟨rfl, hname, -⟩
      · rw [String.ofList_toList, ipAddress_compressed haddress] at hchecked
        obtain rfl := Option.some.inj hchecked
        exact .inl ⟨address, haddress, h⟩
      · rw [hname] at hchecked
        cases hchecked

variable (isGlobal) in
/-- The resolver is asked for nothing, or for the name that was accepted. -/
theorem lookups_eq :
    (resolvePublicProxyHost lowercase isGlobal resolver host port).lookups = [] ∨
    lowercase.validateProxyHost isGlobal host = .ok (lowercase.normalizedHost host) ∧
      ipAddress (String.ofList (lowercase.normalizedHost host)) = none ∧
      (resolvePublicProxyHost lowercase isGlobal resolver host port).lookups =
        [⟨lowercase.normalizedHost host, port⟩] := by
  unfold resolvePublicProxyHost
  cases hvalid : lowercase.validateProxyHost isGlobal host with
  | error e => exact .inl rfl
  | ok checked =>
    dsimp only
    cases hchecked : ipAddress (String.ofList checked) with
    | some literal => exact .inl rfl
    | none =>
      obtain ⟨rfl, hname⟩ := name_of_check hvalid hchecked
      exact .inr ⟨rfl, hname, rfl⟩

end

/-- What is pinned is public, whatever the resolver answers; another answer with the same addresses
pins the same one. Numbers and dots are not looked up, and are accepted only as the dotted quad of
a global address with blanks or dots behind it. -/
theorem resolvePublicProxyHost_safe (lowercase : Text.LowerCase) (isGlobal : IpAddress → Bool)
    (resolver : Resolver) (host : List Char) (port : Int) :
    (∀ value, (resolvePublicProxyHost lowercase isGlobal resolver host port).outcome = .ok value →
      IsPublicText isGlobal value ∧
      (ipAddress (String.ofList (lowercase.normalizedHost host)) = none →
        ∃ rows, resolver (lowercase.normalizedHost host) port = .ok rows ∧
          PinnedFrom isGlobal rows value ∧
          ∀ resolver' : Resolver, ∀ rows',
            resolver' (lowercase.normalizedHost host) port = .ok rows' →
            (∀ text, text ∈ addressesOf rows' ↔ text ∈ addressesOf rows) →
            (resolvePublicProxyHost lowercase isGlobal resolver' host port).outcome = .ok value)) ∧
    (∀ lookup ∈ (resolvePublicProxyHost lowercase isGlobal resolver host port).lookups,
      ¬ IsInetAton lookup.host) ∧
    (IsInetAton host →
      (resolvePublicProxyHost lowercase isGlobal resolver host port).lookups = [] ∧
      ∀ value, lowercase.validateProxyHost isGlobal host = .ok value →
        ∃ address : BitVec 32, ∃ dots, isGlobal (.v4 address) ∧
          value = IpAddress.textV4 address.toNat ∧
          Text.stripChars host = value ++ List.replicate dots '.') := by
  refine ⟨fun value h => ?_, fun lookup hlookup => ?_, fun hhost => ⟨?_, fun value h => ?_⟩⟩
  · rcases resolvePublicProxyHost_ok lowercase resolver host port h with
      ⟨address, haddress, hpublic⟩ | ⟨hname, hpinned, hvalid⟩
    · refine ⟨isPublicText_of_publicIp hpublic, fun hname => ?_⟩
      rw [hname] at haddress
      cases haddress
    · obtain ⟨rows, hrows, hfrom⟩ := exists_rows_of_pinned hpinned
      refine ⟨isPublicText_of_pinned hfrom, fun _ => ⟨rows, hrows, hfrom, ?_⟩⟩
      intro resolver' rows' hrows' hsame
      unfold resolvePublicProxyHost
      rw [hvalid]
      dsimp only
      rw [hname, hrows']
      exact pinnedAddress_ok_iff.mpr (hfrom.congr hsame)
  · rcases lookups_eq isGlobal lowercase resolver host port with
      hnone | ⟨hvalid, hname, hlookups⟩
    · rw [hnone] at hlookup
      cases hlookup
    · rw [hlookups, List.mem_singleton] at hlookup
      rw [hlookup]
      exact not_inetAton_of_check hvalid hname
  · rcases lookups_eq isGlobal lowercase resolver host port with
      hnone | ⟨hvalid, hname, -⟩
    · exact hnone
    · obtain ⟨address, dots, -, hvalue, -⟩ := validateProxyHost_inetAton lowercase hhost hvalid
      have hread := ipAddress_v4 address
      rw [IpAddress.compressed, ← hvalue, hname] at hread
      cases hread
  · exact validateProxyHost_inetAton lowercase hhost h

/-! ### A name, and a dotted quad with one more dot -/

/-- The addresses that are kept, but for the special registries. -/
def unreserved (address : IpAddress) : Bool := !decide address.unmapped.Reserved

/-- A resolver that answers `proxy.example`, in two families and one of them twice. -/
def dualStack : Resolver := fun host _ =>
  if host = "proxy.example".toList then
    .ok (["2001:4860:4860::8888", "8.8.8.8", "8.8.4.4", "8.8.8.8"].map fun address =>
      ⟨some address.toList⟩)
  else .error "Name or service not known"

theorem resolvePublicProxyHost_safe_name :
    (resolvePublicProxyHost Text.lowering unreserved dualStack "Proxy.Example.".toList
        9000).outcome = .ok "8.8.4.4".toList ∧
    IsPublicText unreserved "8.8.4.4".toList := by
  have hrun : (resolvePublicProxyHost Text.lowering unreserved dualStack "Proxy.Example.".toList
      9000).outcome = .ok "8.8.4.4".toList := by decide +kernel
  exact ⟨hrun, ((resolvePublicProxyHost_safe Text.lowering unreserved dualStack _ 9000).1 _ hrun).1⟩

/-- A dot behind a dotted quad is taken off, so the text is accepted and is no dotted quad. -/
theorem validateProxyHost_trailingDot :
    IsInetAton "8.8.8.8.".toList ∧
    Text.lowering.validateProxyHost unreserved "8.8.8.8.".toList = .ok "8.8.8.8".toList ∧
    ¬ ∃ address : BitVec 32, "8.8.8.8.".toList = IpAddress.textV4 address.toNat := by
  refine ⟨⟨List.replicate 4 ['8'], 1, [], rfl, by decide, by decide, ?_, by simp⟩,
    by decide +kernel, ?_⟩
  · intro part hpart
    rw [List.eq_of_mem_replicate hpart]
    exact .inl ⟨by decide, List.forall_mem_singleton.mpr (by decide)⟩
  · rintro ⟨address, haddress⟩
    have hread := IpAddress.parseV4_textV4 address.isLt
    have hnone : IpAddress.parseV4 "8.8.8.8.".toList = none := by decide
    rw [← haddress, hnone] at hread
    cases hread

end EarnProxy
