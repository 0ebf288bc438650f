import EarnProxy.LowerCase

/-!
# Lines with a scheme

The CSV import writes a row with a protocol as a URL whose credentials are quoted. Quoting keeps any
credentials apart from the host; what the parser can still lose are the host and the port.
-/

namespace EarnProxy

namespace Url

theorem partition_of_notMem {c : Char} {cs : List Char} (h : c ∉ cs) :
    partition c cs = (cs, none) := by
  have hall : ∀ d ∈ cs, decide (d ≠ c) = true := fun d hd => decide_eq_true fun heq => h (heq ▸ hd)
  unfold partition
  rw [List.takeWhile_eq_self_iff.mpr hall, List.dropWhile_eq_nil_iff.mpr hall]

theorem partition_append {c : Char} {front : List Char} (h : c ∉ front) (rest : List Char) :
    partition c (front ++ c :: rest) = (front, some rest) := by
  have hall : ∀ d ∈ front, decide (d ≠ c) = true := fun d hd =>
    decide_eq_true fun heq => h (heq ▸ hd)
  unfold partition
  rw [List.takeWhile_append_of_pos hall, List.dropWhile_append_of_pos hall]
  simp

theorem afterLast_append {c : Char} {rest : List Char} (h : c ∉ rest) (front : List Char) :
    afterLast c (front ++ c :: rest) = rest := by
  have hall : ∀ d ∈ rest.reverse, decide (d ≠ c) = true := fun d hd =>
    decide_eq_true fun heq => h (heq ▸ List.mem_reverse.mp hd)
  unfold afterLast
  rw [List.reverse_append, List.reverse_cons, List.append_assoc, List.takeWhile_append_of_pos hall]
  simp

theorem afterLast_of_notMem {c : Char} {cs : List Char} (h : c ∉ cs) : afterLast c cs = cs := by
  have hall : ∀ d ∈ cs.reverse, decide (d ≠ c) = true := fun d hd =>
    decide_eq_true fun heq => h (heq ▸ List.mem_reverse.mp hd)
  unfold afterLast
  rw [List.takeWhile_eq_self_iff.mpr hall, List.reverse_reverse]

theorem notMem_afterLast (c : Char) (cs : List Char) : c ∉ afterLast c cs := by
  unfold afterLast
  rw [List.mem_reverse]
  intro hmem
  simpa using List.mem_takeWhile_imp hmem

theorem beforeLast?_append {c : Char} {rest : List Char} (h : c ∉ rest) (front : List Char) :
    beforeLast? c (front ++ c :: rest) = some front := by
  have hall : ∀ d ∈ rest.reverse, decide (d ≠ c) = true := fun d hd =>
    decide_eq_true fun heq => h (heq ▸ List.mem_reverse.mp hd)
  unfold beforeLast?
  rw [List.reverse_append, List.reverse_cons, List.append_assoc, List.dropWhile_append_of_pos hall]
  simp

theorem beforeLast?_of_notMem {c : Char} {cs : List Char} (h : c ∉ cs) :
    beforeLast? c cs = none := by
  cases hbefore : beforeLast? c cs with
  | none => rfl
  | some front => exact absurd (by rw [(beforeLast?_some hbefore).1]; simp) h

theorem unbroken_append (as bs : List Char) : unbroken (as ++ bs) = unbroken as ++ unbroken bs :=
  List.filter_append _ _

theorem mem_unbroken {c : Char} {cs : List Char} (h : c ∈ unbroken cs) : c ∈ cs :=
  List.mem_of_mem_filter h

theorem unbroken_of_solid {cs : List Char} (h : ∀ c ∈ cs, isSolid c) : unbroken cs = cs := by
  refine List.filter_eq_self.mpr fun c hc => decide_eq_true ?_
  refine ⟨?_, ?_, ?_⟩ <;> rintro rfl <;> exact absurd (h _ hc) (by decide)

end Url

theorem Url.isSchemeChar_ascii {c : Char} (h : Url.isSchemeChar c) : c.toNat < 128 := by
  by_cases hplus : c = '+'
  · subst hplus
    decide
  · refine Url.isSafe_ascii (.inl ?_)
    simp only [Url.isSchemeChar, Bool.or_eq_true, beq_iff_eq, hplus, or_false] at h
    rcases h with (h | rfl) | rfl
    · simp [Url.isSafe, h]
    · decide
    · decide

/-! ## Blanks around a text -/

namespace Text

/-- Blanks around a text without blanks. -/
theorem stripChars_pad {front core back : List Char} (hfront : ∀ c ∈ front, isSpace c)
    (hcore : ∀ c ∈ core, isSpace c = false) (hne : core ≠ []) (hback : ∀ c ∈ back, isSpace c) :
    stripChars (front ++ core ++ back) = core := by
  obtain ⟨c, rest, rfl⟩ := List.exists_cons_of_ne_nil hne
  have hc := hcore c (by simp)
  have hrest : ∀ d ∈ c :: rest, ¬ isSpace d := fun d hd => by simp [hcore d hd]
  have hdrop : (rest ++ back).rdropWhile isSpace = rest := by
    induction back using List.reverseRecOn with
    | nil =>
      rw [List.append_nil]
      refine List.rdropWhile_eq_self_iff.mpr fun hl => hrest _ (List.mem_cons_of_mem _ ?_)
      exact List.getLast_mem hl
    | append_singleton back d ih =>
      rw [← List.append_assoc, List.rdropWhile_concat_pos _ _ _ (hback d (by simp))]
      exact ih fun e he => hback e (List.mem_append_left _ he)
  rw [List.append_assoc, List.cons_append, stripChars_append_cons hc, hdrop,
    List.dropWhile_eq_nil_iff.mpr hfront, List.nil_append]

theorem exists_pad (cs : List Char) : ∃ front back, cs = front ++ stripChars cs ++ back ∧
    (∀ c ∈ front, isSpace c) ∧ ∀ c ∈ back, isSpace c := by
  refine ⟨cs.takeWhile isSpace, (cs.dropWhile isSpace).rtakeWhile isSpace, ?_,
    fun c hc => List.mem_takeWhile_imp hc, fun c hc => List.mem_rtakeWhile_imp hc⟩
  have hright : (cs.dropWhile isSpace).rdropWhile isSpace ++
      (cs.dropWhile isSpace).rtakeWhile isSpace =
      cs.dropWhile isSpace := List.rdropWhile_append_rtakeWhile
  have hleft := List.takeWhile_append_dropWhile (p := isSpace) (l := cs)
  rw [← hright] at hleft
  rw [List.append_assoc]
  exact hleft.symm

end Text

/-! ## Protocols -/

section Protocol

variable {protocol : List Char} {normalized : String}

theorem lower_protocol (h : normalizedProtocol protocol = some normalized) (hne : protocol ≠ []) :
    protocol.flatMap Text.lowerChar ∈
      ["auto".toList, "http".toList, "https".toList, "socks5".toList] := by
  unfold normalizedProtocol at h
  rw [if_neg hne] at h
  dsimp only at h
  generalize hlow : protocol.flatMap Text.lowerChar = lowered at h ⊢
  have hname : String.ofList lowered ∈ ["auto", "http", "https", "socks5"] := by
    by_cases hhttps : String.ofList lowered = "https"
    · simp [hhttps]
    · rw [if_neg hhttps] at h
      split_ifs at h with hmem
      simp only [List.mem_cons, List.not_mem_nil, or_false] at hmem ⊢
      tauto
  have hlist : lowered = (String.ofList lowered).toList := String.toList_ofList.symm
  simp only [List.mem_cons, List.not_mem_nil, or_false] at hname ⊢
  rcases hname with h | h | h | h <;> rw [hlist, h] <;> simp

/-- A letter, or the digit of `socks5`. -/
def IsProtocolChar (c : Char) : Prop := c.isAlpha ∨ c = '5'

theorem IsProtocolChar.facts {c : Char} (hc : IsProtocolChar c) :
    Url.isSchemeChar c ∧ c ≠ ':' ∧ isSolid c ∧ c.toNat < 128 := by
  have hscheme : Url.isSchemeChar c := by
    rcases hc with h | rfl
    · simp [Url.isSchemeChar, Char.isAlphanum, h]
    · decide
  have hrange : 65 ≤ c.toNat ∧ c.toNat ≤ 122 ∨ c.toNat = 53 := by
    rcases hc with h | rfl
    · rw [Text.isAlpha_iff, Text.isUpper_iff, Text.isLower_iff] at h
      omega
    · exact .inr rfl
  have hspace : Text.isSpace c = false := by
    by_contra h
    obtain ⟨r, hr, hlow, hhigh⟩ := Text.exists_spaceRange (by simpa using h)
    have hranges : ∀ r ∈ Text.spaceRanges, r.2 < 53 ∨ 122 < r.1 := by decide
    have := hranges r hr
    omega
  refine ⟨hscheme, ?_, ?_, by omega⟩
  · rintro rfl
    exact absurd hrange (by decide)
  · simp only [isSolid, hspace, Bool.not_false, Bool.and_true, decide_eq_true_eq]
    omega

/-- A character of a protocol, or the Kelvin sign that stands for its `k`. -/
theorem protocol_chars (h : normalizedProtocol protocol = some normalized) (hne : protocol ≠ []) :
    ∀ c ∈ protocol, IsProtocolChar c ∨ c.toNat = 0x212A := by
  intro c hc
  have hnames : ∀ d ∈ ["auto".toList, "http".toList, "https".toList, "socks5".toList].flatten,
      (d.isAlpha ∨ d = '5') ∧ d.toNat < 128 := forall_mem_of_all (by decide)
  have hchar : ∀ d ∈ Text.lowerChar c, (d.isAlpha ∨ d = '5') ∧ d.toNat < 128 := fun d hd =>
    hnames d (List.mem_flatten.mpr ⟨_, lower_protocol h hne, List.mem_flatMap.mpr ⟨c, hc, hd⟩⟩)
  rcases Text.ascii_of_lowerChar fun d hd => (hchar d hd).2 with hascii | hkelvin
  · left
    rw [Text.lowerChar_of_ascii hascii] at hchar
    have hlow := (hchar c.toLower (by simp)).1
    unfold Char.toLower at hlow
    split at hlow
    · rename_i hupper
      exact .inl (Text.isAlpha_iff.mpr (.inl (Text.isUpper_iff.mpr hupper)))
    · exact hlow
  · exact .inr hkelvin

theorem protocol_head (h : normalizedProtocol protocol = some normalized) (hne : protocol ≠ []) :
    ∃ c rest, protocol = c :: rest ∧ c.isAlpha := by
  obtain ⟨c, rest, rfl⟩ := List.exists_cons_of_ne_nil hne
  refine ⟨c, rest, rfl, ?_⟩
  have hnames : ∀ name ∈ ["auto".toList, "http".toList, "https".toList, "socks5".toList],
      name.head? ≠ some '5' ∧ name.head? ≠ some 'k' := by decide
  have hhead := hnames _ (lower_protocol h hne)
  rcases protocol_chars h hne c (by simp) with (hc | rfl) | hkelvin
  · exact hc
  · exact absurd rfl hhead.1
  · refine absurd ?_ hhead.2
    unfold Text.lowerChar
    simp [hkelvin]

theorem protocol_ne_colon (h : normalizedProtocol protocol = some normalized)
    (hne : protocol ≠ []) : ':' ∉ protocol := by
  intro hmem
  rcases protocol_chars h hne _ hmem with hc | hkelvin
  · exact hc.facts.2.1 rfl
  · exact absurd hkelvin (by decide)

theorem protocol_solid (h : normalizedProtocol protocol = some normalized) (hne : protocol ≠ []) :
    ∀ c ∈ protocol, isSolid c := by
  intro c hc
  rcases protocol_chars h hne c hc with hc | hkelvin
  · exact hc.facts.2.2.1
  · simp only [isSolid, Text.isSpace, hkelvin]
    decide

theorem all_ascii_iff {value : List Char} :
    value.all (fun c => c.toNat < 128) = true ↔ ∀ c ∈ value, c.toNat < 128 := by
  rw [List.all_eq_true]
  exact forall₂_congr fun c _ => decide_eq_true_iff

/-- The scheme that `urlsplit` reads is a protocol exactly when it is ASCII. -/
theorem splitScheme_protocol (h : normalizedProtocol protocol = some normalized)
    (hne : protocol ≠ []) (rest : List Char) : Url.splitScheme (protocol ++ ':' :: rest) =
      if protocol.all (fun c => c.toNat < 128) then (protocol.map Char.toLower, rest)
      else ([], protocol ++ ':' :: rest) := by
  obtain ⟨c, others, rfl, halpha⟩ := protocol_head h hne
  unfold Url.splitScheme
  rw [Url.partition_append (protocol_ne_colon h hne)]
  dsimp only
  by_cases hall : (c :: others).all (fun d => d.toNat < 128) = true
  · have hascii := all_ascii_iff.mp hall
    have hscheme : others.all Url.isSchemeChar := by
      rw [List.all_eq_true]
      intro d hd
      rcases protocol_chars h hne d (List.mem_cons_of_mem _ hd) with hd' | hkelvin
      · exact hd'.facts.1
      · have := hascii d (List.mem_cons_of_mem _ hd)
        omega
    rw [if_pos hall, if_pos (by simp [halpha, hscheme])]
  · rw [if_neg hall, if_neg]
    intro hscheme
    rw [Bool.and_eq_true, List.all_eq_true] at hscheme
    refine hall (all_ascii_iff.mpr fun d hd => ?_)
    rcases protocol_chars h hne d hd with hd' | hkelvin
    · exact hd'.facts.2.2.2
    · rcases List.mem_cons.mp hd with rfl | hd
      · exact Url.isSchemeChar_ascii (by simp [Url.isSchemeChar, Char.isAlphanum, halpha])
      · exact Url.isSchemeChar_ascii (hscheme.2 d hd)

/-- The scheme in lower case is the same protocol. -/
theorem normalizedProtocol_scheme (h : normalizedProtocol protocol = some normalized)
    (hne : protocol ≠ []) (hascii : ∀ c ∈ protocol, c.toNat < 128) :
    normalizedProtocol (protocol.map Char.toLower) = some normalized := by
  have hlower : protocol.map Char.toLower = protocol.flatMap Text.lowerChar := by
    rw [List.map_eq_flatMap, List.flatMap_def, List.flatMap_def]
    congr 1
    exact List.map_congr_left fun c hc => (Text.lowerChar_of_ascii (hascii c hc)).symm
  have hne' : protocol.map Char.toLower ≠ [] := by simpa using hne
  unfold normalizedProtocol at h ⊢
  rw [if_neg hne] at h
  rw [if_neg hne', hlower, Text.lower_lower]
  exact h

end Protocol

/-! ## Hosts and ports in a URL -/

/-- The characters that a URL is divided at. -/
def urlDelimiters : List Char := ['/', '?', '#', '@', '[', ']', '%', ':']

/-- A character that a URL keeps where it stands. -/
def IsUrlText (c : Char) : Prop := c ∉ urlDelimiters ∧ c.toNat ∉ Url.delimiterLookalikes

theorem urlText_of_isSpace {c : Char} (h : Text.isSpace c) : IsUrlText c := by
  obtain ⟨r, hr, hlow, hhigh⟩ := Text.exists_spaceRange h
  have hranges : ∀ r ∈ Text.spaceRanges, ∀ n ∈ Url.delimiterLookalikes, n < r.1 ∨ r.2 < n := by
    decide
  have hdelimiters : ∀ d ∈ urlDelimiters, Text.isSpace d = false := forall_mem_of_all (by decide)
  refine ⟨fun hmem => ?_, fun hmem => ?_⟩
  · rw [hdelimiters c hmem] at h
    cases h
  · have := hranges r hr _ hmem
    omega

theorem urlText_of_numeral {c : Char} (h : Text.IsNumeral c) : IsUrlText c := by
  rcases h with rfl | rfl | rfl | h
  · exact ⟨by decide, by decide⟩
  · exact ⟨by decide, by decide⟩
  · exact ⟨by decide, by decide⟩
  · obtain ⟨first, hfirst, hlow, hhigh⟩ := Text.decimal?_range h
    have hranges : ∀ first ∈ Text.decimalZeros, ∀ n ∈ Url.delimiterLookalikes,
        n < first ∨ first + 10 ≤ n := by decide
    have hdelimiters : ∀ d ∈ urlDelimiters, Text.decimal? d = none := forall_mem_of_all (by decide)
    refine ⟨fun hmem => ?_, fun hmem => ?_⟩
    · rw [hdelimiters c hmem] at h
      cases h
    · have := hranges first hfirst _ hmem
      omega

theorem urlText_portText {portText : List Char} {port : Int} (h : Text.int? portText = some port) :
    ∀ c ∈ portText, IsUrlText c := by
  intro c hc
  rcases Text.int?_chars h c hc with hspace | hnumeral
  · exact urlText_of_isSpace (Text.isSpace_of_isNumberSpace hspace)
  · exact urlText_of_numeral hnumeral

/-- A character whose lower case is plain. -/
theorem urlText_of_lower {c : Char} (h : ∀ d ∈ Text.lowerChar c, IsPlainHostChar d) :
    IsUrlText c := by
  have hplain : ∀ d, IsPlainHostChar d → d.toNat < 128 := by
    intro d hd
    rcases hd with h | h | rfl | rfl
    · have := Text.isLower_iff.mp h
      omega
    · have := Text.isDigit_iff.mp h
      omega
    · decide
    · decide
  have hdelimiters : ∀ d ∈ urlDelimiters, Text.lowerChar d = [d] ∧
      ¬ (d.isLower ∨ d.isDigit ∨ d = '-' ∨ d = '.') := forall_mem_of_all (by decide)
  have hlookalikes : ∀ n ∈ Url.delimiterLookalikes, 128 ≤ n ∧ n ≠ 0x212A := by decide
  refine ⟨fun hmem => ?_, fun hmem => ?_⟩
  · obtain ⟨hlow, hnot⟩ := hdelimiters c hmem
    rw [hlow] at h
    exact hnot (h c (by simp))
  · have hrange := hlookalikes _ hmem
    rcases Text.ascii_of_lowerChar fun d hd => hplain d (h d hd) with h | h <;> omega

section Host

variable {isGlobal : IpAddress → Bool} {protocol host : List Char} {port : Int}
variable {username password : List Char} {p : ParsedProxy}

namespace Validated

theorem isSpace_stripped (h : Validated isGlobal protocol host port username password p) :
    ∀ c ∈ Text.stripChars host, Text.isSpace c = false := by
  intro c hc
  by_contra hspace
  have hlow := Text.lowerChar_of_isSpace (c := c) (by simpa using hspace)
  have hmem : c ∈ strippedHost host := List.mem_flatMap.mpr ⟨c, hc, by simp [hlow]⟩
  rw [(h.clean c hmem).1] at hspace
  exact hspace rfl

theorem stripped_ne_nil (h : Validated isGlobal protocol host port username password p) :
    Text.stripChars host ≠ [] := by
  intro hnil
  refine h.nonempty ?_
  rw [strippedHost, hnil]
  rfl

theorem plain_strippedHost (h : Validated isGlobal protocol host port username password p)
    (hcolon : ':' ∉ host) : ∀ d ∈ strippedHost host, IsPlainHostChar d := by
  intro d hd
  by_cases hdot : d = '.'
  · exact .inr (.inr (.inr hdot))
  refine plain_of_check h.host_eq (by rwa [h.mem_host (.inl rfl)]) d ?_
  obtain ⟨c, -, hc⟩ := List.mem_flatMap.mp hd
  unfold normalizedHost
  rw [mem_rdropWhile_of_not (by simpa using hdot)]
  refine List.mem_flatMap.mpr ⟨d, ?_, by rw [Text.lowerChar_of_mem hc]; simp⟩
  rwa [Text.mem_stripChars (h.clean d hd).1]

/-- No host without a colon disturbs a URL. -/
theorem urlText_host (h : Validated isGlobal protocol host port username password p)
    (hcolon : ':' ∉ host) : ∀ c ∈ host, IsUrlText c := by
  intro c hc
  by_cases hspace : Text.isSpace c
  · exact urlText_of_isSpace hspace
  · refine urlText_of_lower fun d hd => h.plain_strippedHost hcolon d ?_
    exact List.mem_flatMap.mpr ⟨c, by rwa [Text.mem_stripChars (by simpa using hspace)], hd⟩

/-- What a URL makes of the host is the same host. -/
theorem strippedHost_unbroken (h : Validated isGlobal protocol host port username password p) :
    strippedHost ((Url.unbroken host).flatMap Text.lowerChar) = strippedHost host := by
  obtain ⟨front, back, hhost, hfront, hback⟩ := Text.exists_pad host
  have hcore := h.isSpace_stripped
  have hne := h.stripped_ne_nil
  generalize hstrip : Text.stripChars host = core at hhost hcore hne
  have hblank {cs : List Char} (hcs : ∀ c ∈ cs, Text.isSpace c) :
      ∀ c ∈ (Url.unbroken cs).flatMap Text.lowerChar, Text.isSpace c := by
    intro c hc
    obtain ⟨d, hd, hc⟩ := List.mem_flatMap.mp hc
    have hspace := hcs d (Url.mem_unbroken hd)
    rw [Text.lowerChar_of_isSpace hspace, List.mem_singleton] at hc
    rwa [hc]
  have hunbroken : Url.unbroken core = core := by
    refine List.filter_eq_self.mpr fun c hc => decide_eq_true ?_
    refine ⟨?_, ?_, ?_⟩ <;> rintro rfl <;> exact absurd (hcore _ hc) (by decide)
  have hlower : core.flatMap Text.lowerChar = strippedHost host := by rw [strippedHost, hstrip]
  rw [hhost, Url.unbroken_append, Url.unbroken_append, hunbroken, List.flatMap_append,
    List.flatMap_append, hlower, strippedHost, Text.stripChars_pad (hblank hfront)
    (fun c hc => (h.clean c hc).1) h.nonempty (hblank hback), ← hhost]
  unfold strippedHost
  rw [Text.lower_lower]

end Validated

end Host

/-- The port as a URL has it. -/
def urlPortText (portText : List Char) : List Char :=
  Url.unbroken (portText.rdropWhile Text.isSpace)

/-- The value of decimal digits. -/
def digitsValue (cs : List Char) : Nat := cs.foldl (fun n c => 10 * n + (c.toNat - '0'.toNat)) 0

theorem decimal?_of_isDecimal {c : Char} (h : IpAddress.isDecimal c) :
    Text.decimal? c = some (c.toNat - '0'.toNat) := by
  have hrange : '0'.toNat ≤ c.toNat ∧ c.toNat ≤ '9'.toNat := by
    simpa [IpAddress.isDecimal, Char.le_def, UInt32.le_iff_toNat_le] using h
  have hall : ∀ n ∈ List.range 58, 48 ≤ n → Text.decimal? (Char.ofNat n) = some (n - 48) := by
    decide
  have h0 : '0'.toNat = 48 := rfl
  have h9 : '9'.toNat = 57 := rfl
  have := hall c.toNat (List.mem_range.mpr (by omega)) (by omega)
  rwa [Char.ofNat_toNat] at this

theorem mapM_decimal?_of_isDecimal {cs : List Char} (h : ∀ c ∈ cs, IpAddress.isDecimal c) :
    cs.mapM Text.decimal? = some (cs.map fun c => c.toNat - '0'.toNat) := by
  induction cs with
  | nil => rfl
  | cons c cs ih =>
    obtain ⟨hc, hcs⟩ := List.forall_mem_cons.mp h
    rw [List.mapM_cons, decimal?_of_isDecimal hc, ih hcs]
    rfl

/-- A port in ASCII digits has the value that `int` gives it. -/
theorem digitsValue_urlPortText {portText : List Char} {port : Int}
    (h : Text.int? portText = some port)
    (hdigits : ∀ c ∈ urlPortText portText, IpAddress.isDecimal c) :
    urlPortText portText ≠ [] ∧ (digitsValue (urlPortText portText) : Int) = port := by
  obtain ⟨hne, hcore⟩ := Text.int?_core h
  have hright := Text.rdropWhile_isSpace h
  unfold urlPortText at hdigits ⊢
  rw [hright] at hdigits ⊢
  -- the blanks in front of the number are all removed
  have hparts := List.takeWhile_append_dropWhile (p := Text.isNumberSpace)
    (l := portText.rdropWhile Text.isNumberSpace)
  unfold Text.int? at h
  generalize hlead :
    (portText.rdropWhile Text.isNumberSpace).takeWhile Text.isNumberSpace = lead at hparts
  generalize (portText.rdropWhile Text.isNumberSpace).dropWhile Text.isNumberSpace =
    core at h hne hcore hparts
  have hunbroken : Url.unbroken core = core := Url.unbroken_of_solid fun c hc => (hcore c hc).solid
  rw [← hparts, Url.unbroken_append, hunbroken] at hdigits ⊢
  have hnil : Url.unbroken lead = [] := by
    refine List.eq_nil_iff_forall_not_mem.mpr fun c hc => ?_
    have hspace : Text.isNumberSpace c := by
      have := Url.mem_unbroken hc
      rw [← hlead] at this
      exact List.mem_takeWhile_imp this
    have hdecimal := decimal?_of_isDecimal (hdigits c (List.mem_append_left _ hc))
    have hsolid := Text.isSolid_decimal (c := c) (by rw [hdecimal]; rfl)
    simp only [isSolid, Text.isSpace_of_isNumberSpace hspace, Bool.not_true,
      Bool.and_false] at hsolid
    cases hsolid
  rw [hnil, List.nil_append] at hdigits ⊢
  refine ⟨hne, ?_⟩
  have hvalue {n : Nat} (hn : Text.int?.natural? core = some n) : digitsValue core = n := by
    unfold Text.int?.natural? Text.groupedValue? at hn
    have hunderscore : '_' ∉ core := fun hmem => absurd (hdigits _ hmem) (by decide)
    rw [List.splitOn_eq_singleton hunderscore] at hn
    split_ifs at hn
    simp only [List.any_cons, List.any_nil, Bool.or_false, decide_eq_true_eq, hne, if_false,
      List.flatten_singleton, mapM_decimal?_of_isDecimal hdigits, Option.map_some,
      Option.some.injEq, List.foldl_map] at hn
    exact hn
  split at h
  · exact absurd (hdigits _ List.mem_cons_self) (by decide)
  · exact absurd (hdigits _ List.mem_cons_self) (by decide)
  · obtain ⟨n, hn, rfl⟩ := Option.map_eq_some_iff.mp h
    rw [hvalue hn]
    rfl

/-! ## The line of a row with a protocol -/

/-- The quoted credentials of a URL, if there are any. -/
def quotedCredentials (username password : List Char) : List Char :=
  if username = [] ∧ password = [] then []
  else Url.quote username ++ ':' :: Url.quote password ++ ['@']

/-- The line of a proxy as a URL. -/
def urlLine (protocol host portText username password : List Char) : List Char :=
  protocol ++ "://".toList ++ quotedCredentials username password ++ host ++ ':' :: portText

theorem quote_solid {cs : List Char} : ∀ c ∈ Url.quote cs, isSolid c := by
  intro c hc
  have hascii : ∀ n ∈ List.range 128, Url.isSafe (Char.ofNat n) ∨ Char.ofNat n = '%' →
      isSolid (Char.ofNat n) := by decide +kernel
  have hsafe := Url.quote_chars hc
  have := hascii c.toNat (List.mem_range.mpr (Url.isSafe_ascii hsafe))
  rw [Char.ofNat_toNat] at this
  exact this hsafe

theorem quote_notMem {d : Char} (hd : Url.isSafe d = false ∧ d ≠ '%') {cs : List Char} :
    d ∉ Url.quote cs := by
  intro hmem
  rcases Url.quote_chars hmem with h | h
  · rw [hd.1] at h
    cases h
  · exact hd.2 h

/-- The characters of quoted credentials. -/
theorem quotedCredentials_chars {username password : List Char} {c : Char}
    (hc : c ∈ quotedCredentials username password) :
    Url.isSafe c ∨ c = '%' ∨ c = ':' ∨ c = '@' := by
  unfold quotedCredentials at hc
  split_ifs at hc
  · cases hc
  · simp only [List.mem_append, List.mem_cons, List.not_mem_nil, or_false] at hc
    rcases hc with (hc | rfl | hc) | rfl
    · exact (Url.quote_chars hc).imp id .inl
    · exact .inr (.inr (.inl rfl))
    · exact (Url.quote_chars hc).imp id .inl
    · exact .inr (.inr (.inr rfl))

theorem quotedCredentials_solid (username password : List Char) :
    ∀ c ∈ quotedCredentials username password, isSolid c := by
  intro c hc
  unfold quotedCredentials at hc
  split_ifs at hc
  · cases hc
  · simp only [List.mem_append, List.mem_cons, List.not_mem_nil, or_false] at hc
    rcases hc with (hc | rfl | hc) | rfl
    · exact quote_solid c hc
    · decide
    · exact quote_solid c hc
    · decide

section UrlLine

variable {protocol host portText username password : List Char} {normalized : String}

theorem stripChars_urlLine (h : normalizedProtocol protocol = some normalized)
    (hne : protocol ≠ []) : Text.stripChars (urlLine protocol host portText username password) =
      urlLine protocol host (portText.rdropWhile Text.isSpace) username password := by
  obtain ⟨c, rest, rfl, -⟩ := protocol_head h hne
  have hsolid := protocol_solid h hne c (by simp)
  simp only [isSolid, Bool.and_eq_true, Bool.not_eq_true'] at hsolid
  unfold urlLine
  rw [stripChars_append_cons (by decide)]
  simp [hsolid.2]

theorem cleaned_urlLine (h : normalizedProtocol protocol = some normalized) (hne : protocol ≠ []) :
    Url.cleaned (Text.stripChars (urlLine protocol host portText username password)) =
      protocol ++ ':' :: '/' :: '/' :: (quotedCredentials username password ++
        (Url.unbroken host ++ ':' :: urlPortText portText)) := by
  have hprotocol := Url.unbroken_of_solid (protocol_solid h hne)
  have hcredentials := Url.unbroken_of_solid (quotedCredentials_solid username password)
  have hmarks : Url.unbroken "://".toList = "://".toList := by decide
  have hcolon : Url.unbroken [':'] = [':'] := by decide
  have hfront :
      (urlLine protocol host (portText.rdropWhile Text.isSpace) username password).dropWhile
      (fun c => decide (c.toNat ≤ 32)) =
      urlLine protocol host (portText.rdropWhile Text.isSpace) username password := by
    obtain ⟨c, rest, rfl, -⟩ := protocol_head h hne
    have hsolid := protocol_solid h hne c (by simp)
    simp only [isSolid, Bool.and_eq_true, decide_eq_true_eq] at hsolid
    unfold urlLine
    simp [hsolid.1]
  rw [stripChars_urlLine h hne]
  change Url.unbroken (List.dropWhile (fun c => decide (c.toNat ≤ 32)) _) = _
  rw [hfront, urlLine, List.append_cons _ ':' (portText.rdropWhile Text.isSpace)]
  simp only [Url.unbroken_append, hprotocol, hcredentials, hmarks, hcolon]
  simp [urlPortText]

/-- Only an ASCII protocol is a scheme. -/
theorem urlsplit_urlLine (h : normalizedProtocol protocol = some normalized) (hne : protocol ≠ [])
    {netloc : List Char} (hnetloc : netloc = (quotedCredentials username password ++
      (Url.unbroken host ++ ':' :: urlPortText portText)).takeWhile
        fun c => c ≠ '/' ∧ c ≠ '?' ∧ c ≠ '#') :
    Url.urlsplit (Text.stripChars (urlLine protocol host portText username password)) =
      if protocol.all (fun c => c.toNat < 128) then
        if Url.isNetloc netloc then some { scheme := protocol.map Char.toLower, netloc } else none
      else some { scheme := [], netloc := [] } := by
  unfold Url.urlsplit
  rw [cleaned_urlLine h hne, splitScheme_protocol h hne]
  by_cases hascii : protocol.all (fun c => c.toNat < 128) = true
  · rw [if_pos hascii, if_pos hascii, hnetloc]
    rfl
  · rw [if_neg hascii, if_neg hascii]
    obtain ⟨c, rest, rfl, halpha⟩ := protocol_head h hne
    split
    · rename_i heq
      have hc := congrArg (fun pair => pair.2.head?) heq
      simp only [List.cons_append, List.head?_cons, Option.some.injEq] at hc
      rw [hc] at halpha
      cases halpha
    · rename_i heq
      rw [← (Prod.mk.inj heq).1]

/-- What stands behind the credentials. -/
theorem afterLast_netloc {rest : List Char} (hrest : '@' ∉ rest) (username password : List Char) :
    Url.afterLast '@' (quotedCredentials username password ++ rest) = rest := by
  unfold quotedCredentials
  split_ifs with hnil
  · exact Url.afterLast_of_notMem hrest
  · rw [List.append_assoc]
    exact Url.afterLast_append hrest _

/-- The credentials are read back, whatever they are. -/
theorem userinfo_netloc {rest : List Char} (hrest : '@' ∉ rest)
    (scheme username password : List Char) :
    let userinfo := (Url.SplitResult.mk scheme
      (quotedCredentials username password ++ rest)).userinfo
    Url.unquote userinfo.1 = username ∧ Url.unquote userinfo.2 = password := by
  dsimp only
  unfold Url.SplitResult.userinfo quotedCredentials
  dsimp only
  split_ifs with hnil
  · rw [List.nil_append, Url.beforeLast?_of_notMem hrest, hnil.1, hnil.2]
    exact ⟨rfl, rfl⟩
  · rw [List.append_assoc, List.singleton_append, Url.beforeLast?_append hrest]
    dsimp only
    rw [Url.partition_append (quote_notMem (by decide))]
    exact ⟨Url.unquote_quote username, Url.unquote_quote password⟩

/-- A network location of the credentials, a host and a port. -/
structure IsPlainNetloc (host portText : List Char) : Prop where
  host : ∀ c ∈ host, IsUrlText c
  portText : ∀ c ∈ portText, IsUrlText c

namespace IsPlainNetloc

variable (h : IsPlainNetloc host portText)
include h

theorem mem {c : Char} (hc : c ∈ host ++ ':' :: portText) : c = ':' ∨ IsUrlText c := by
  rcases List.mem_append.mp hc with hc | hc
  · exact .inr (h.host c hc)
  · rcases List.mem_cons.mp hc with rfl | hc
    · exact .inl rfl
    · exact .inr (h.portText c hc)

theorem notMem {d : Char} (hd : d ∈ urlDelimiters) (hne : d ≠ ':') : d ∉ host ++ ':' :: portText :=
  fun hmem => (h.mem hmem).elim hne fun htext => htext.1 hd

theorem netloc_chars {c : Char} (hc : c ∈ quotedCredentials username password ++
    (host ++ ':' :: portText)) : c ∉ ['/', '?', '#', '[', ']'] ∧
      c.toNat ∉ Url.delimiterLookalikes := by
  have hsub : ∀ d ∈ ['/', '?', '#', '[', ']'], d ∈ urlDelimiters := forall_mem_of_all (by decide)
  rcases List.mem_append.mp hc with hc | hc
  · have hnot : ∀ d ∈ ['/', '?', '#', '[', ']'], ¬ (Url.isSafe d ∨ d = '%' ∨ d = ':' ∨ d = '@') :=
      forall_mem_of_all (by decide)
    have hchars := quotedCredentials_chars hc
    have hascii : c.toNat < 128 := by
      rcases hchars with h | h | rfl | rfl
      · exact Url.isSafe_ascii (.inl h)
      · exact Url.isSafe_ascii (.inr h)
      · decide
      · decide
    have hlookalikes : ∀ n ∈ Url.delimiterLookalikes, 128 ≤ n := by decide
    refine ⟨fun hmem => hnot c hmem hchars, fun hmem => ?_⟩
    have := hlookalikes _ hmem
    omega
  · rcases h.mem hc with rfl | htext
    · decide
    · exact ⟨fun hmem => htext.1 (hsub c hmem), htext.2⟩

theorem takeWhile_netloc (username password : List Char) :
    (quotedCredentials username password ++ (host ++ ':' :: portText)).takeWhile
      (fun c => c ≠ '/' ∧ c ≠ '?' ∧ c ≠ '#') =
      quotedCredentials username password ++ (host ++ ':' :: portText) := by
  refine List.takeWhile_eq_self_iff.mpr fun c hc => decide_eq_true ?_
  have hnot := (h.netloc_chars hc).1
  simp only [List.mem_cons, List.not_mem_nil, or_false, not_or] at hnot
  exact ⟨hnot.1, hnot.2.1, hnot.2.2.1⟩

theorem isNetloc (username password : List Char) :
    Url.isNetloc (quotedCredentials username password ++ (host ++ ':' :: portText)) := by
  have hopen : '[' ∉ quotedCredentials username password ++ (host ++ ':' :: portText) := fun hmem =>
    (h.netloc_chars hmem).1 (by decide)
  have hclose : ']' ∉ quotedCredentials username password ++ (host ++ ':' :: portText) :=
    fun hmem => (h.netloc_chars hmem).1 (by decide)
  have hlookalikes : (quotedCredentials username password ++ (host ++ ':' :: portText)).all
      fun c => c.toNat ∉ Url.delimiterLookalikes := by
    rw [List.all_eq_true]
    exact fun c hc => decide_eq_true (h.netloc_chars hc).2
  unfold Url.isNetloc
  rw [hlookalikes]
  simp [hopen, hclose]

theorem hostInfo (hcolon : ':' ∉ host) (username password : List Char) :
    Url.hostInfo (quotedCredentials username password ++ (host ++ ':' :: portText)) =
      (host, some portText) := by
  unfold Url.hostInfo
  dsimp only
  rw [afterLast_netloc (h.notMem (by decide) (by decide)),
    Url.partition_of_notMem (h.notMem (d := '[') (by decide) (by decide))]
  exact Url.partition_append hcolon portText

theorem hostname (hcolon : ':' ∉ host) (scheme username password : List Char) :
    (Url.SplitResult.mk scheme (quotedCredentials username password ++
      (host ++ ':' :: portText))).hostname = host.flatMap Text.lowerChar := by
  have hpercent : '%' ∉ host := fun hmem => (h.host _ hmem).1 (by decide)
  unfold Url.SplitResult.hostname
  dsimp only
  rw [h.hostInfo hcolon]
  dsimp only
  rw [Url.partition_of_notMem hpercent]
  exact List.append_nil _

theorem splitPortText (hcolon : ':' ∉ host) (scheme username password : List Char) :
    (Url.SplitResult.mk scheme (quotedCredentials username password ++
      (host ++ ':' :: portText))).portText = portText := by
  unfold Url.SplitResult.portText
  dsimp only
  rw [h.hostInfo hcolon, afterLast_netloc (h.notMem (by decide) (by decide)),
    Url.partition_of_notMem (h.notMem (d := '[') (by decide) (by decide))]

theorem port (hcolon : ':' ∉ host) (scheme username password : List Char) :
    (Url.SplitResult.mk scheme (quotedCredentials username password ++
      (host ++ ':' :: portText))).port =
        if ¬ portText.all IpAddress.isDecimal then none
        else if digitsValue portText ≤ 65535 then some (digitsValue portText) else none := by
  unfold Url.SplitResult.port
  rw [h.splitPortText hcolon]
  rfl

end IsPlainNetloc

/-! ## IPv6 addresses in a URL -/

namespace Url

theorem mem_afterLast {c d : Char} {cs : List Char} (h : d ∈ afterLast c cs) : d ∈ cs := by
  unfold afterLast at h
  rw [List.mem_reverse] at h
  exact List.mem_reverse.mp ((List.takeWhile_sublist _).subset h)

theorem mem_partition_fst {c d : Char} {cs : List Char} (h : d ∈ (partition c cs).1) : d ∈ cs :=
  (List.takeWhile_sublist _).subset h

theorem mem_hostInfo {c : Char} {netloc : List Char} (h : c ∈ (hostInfo netloc).1) :
    c ∈ afterLast '@' netloc := by
  unfold hostInfo at h
  dsimp only at h
  split at h
  · rename_i bracketed hpart
    rw [(partition_some hpart).1]
    exact List.mem_append_right _ (List.mem_cons_of_mem _ (mem_partition_fst h))
  · exact mem_partition_fst h

theorem SplitResult.mem_hostname {r : SplitResult} {c : Char} (hc : IsMark c) (h : c ∈ r.hostname) :
    c ∈ (Url.hostInfo r.netloc).1 := by
  obtain ⟨hlow, -, -, hpercent, -⟩ := hc.facts
  unfold SplitResult.hostname at h
  dsimp only at h
  rcases List.mem_append.mp h with h | h
  · rw [Text.mem_flatMap_lowerChar hlow] at h
    exact mem_partition_fst h
  · split at h
    · cases h
    · rename_i zone hzone
      have hpart : partition '%' (Url.hostInfo r.netloc).1 =
          ((partition '%' (Url.hostInfo r.netloc).1).1, some zone) := by rw [← hzone]
      rw [(partition_some hpart).1]
      exact List.mem_append_right _ ((List.mem_cons.mp h).elim (fun h => absurd h hpercent)
        fun h => List.mem_cons_of_mem _ h)

/-- A host with a colon is in brackets, and those open the location. -/
theorem SplitResult.bracket_of_colon {r : SplitResult} (hvalid : isNetloc r.netloc)
    (h : ':' ∈ r.hostname) : ∃ rest, afterLast '@' r.netloc = '[' :: rest := by
  have hmem := r.mem_hostname (.inl rfl) h
  have hbracket : '[' ∈ afterLast '@' r.netloc := by
    by_contra hnone
    unfold hostInfo at hmem
    dsimp only at hmem
    rw [partition_of_notMem hnone] at hmem
    have := List.mem_takeWhile_imp hmem
    simp at this
  unfold isNetloc isNetloc.brackets at hvalid
  dsimp only at hvalid
  cases hafter : afterLast '@' r.netloc with
  | nil => rw [hafter] at hbracket; cases hbracket
  | cons c rest =>
    have hopen : '[' ∈ r.netloc := mem_afterLast hbracket
    rw [hafter] at hvalid hbracket
    by_cases hc : c = '['
    · exact ⟨rest, by rw [hc]⟩
    · have hfront : (partition '[' (c :: rest)).1 ≠ [] := by simp [partition, hc]
      have hsome : (partition '[' (c :: rest)).2 ≠ none := by
        intro hnone
        have hdrop : (c :: rest).dropWhile (· ≠ '[') = [] := by
          unfold partition at hnone
          dsimp only at hnone
          split at hnone
          · assumption
          · cases hnone
        have := List.dropWhile_eq_nil_iff.mp hdrop '[' hbracket
        simp at this
      simp [hopen, hfront, hsome] at hvalid

end Url

theorem checkProxyHost_bracket {isGlobal : IpAddress → Bool} {rest checked : List Char} :
    checkProxyHost isGlobal ('[' :: rest) ≠ .ok checked := by
  have hbracket : ¬ ('[' = ':' ∨ '[' = '.' ∨ IpAddress.isDecimal '[' ∨
    (IpAddress.hexDigit? '[').isSome) := by decide
  intro h
  rcases checkProxyHost_ok h with ⟨address, text, haddress, -, -⟩ | ⟨-, -, hlabels⟩
  · unfold ipAddress at haddress
    rw [String.toList_ofList] at haddress
    dsimp only at haddress
    split at haddress
    · rename_i hvalue
      rcases IpAddress.parseV4_chars hvalue (List.mem_cons_self) with h | h
      · exact hbracket (.inr (.inl h))
      · exact hbracket (.inr (.inr (.inl h)))
    · split_ifs at haddress
      obtain ⟨⟨text, scope⟩, hscope, haddress⟩ := Option.bind_eq_some_iff.mp haddress
      obtain ⟨value, hvalue, -⟩ := Option.bind_eq_some_iff.mp haddress
      obtain ⟨parts, hparts, -⟩ := Option.bind_eq_some_iff.mp hvalue
      -- the bracket belongs to the address, not to the scope
      have hmem : '[' ∈ text := by
        have heq := IpAddress.splitScope_eq hscope
        cases text with
        | nil => cases scope <;> simp [IpAddress.scopeText] at heq
        | cons c text =>
          rw [← (List.cons.inj heq).1]
          exact List.mem_cons_self
      exact hbracket (IpAddress.v6Parts_chars hparts hmem)
  · rcases mem_splitOn '.' (List.mem_cons_self (a := '[') (l := rest)) with h | ⟨label, hlabel, hc⟩
    · exact hbracket (.inr (.inl h))
    · exact absurd (isProxyLabel_chars (hlabels label hlabel) hc) (by decide)

theorem Validated.solid_stripped {isGlobal : IpAddress → Bool} {port : Int} {p : ParsedProxy}
    (hv : Validated isGlobal protocol host port username password p) :
    ∀ c ∈ Text.stripChars host, isSolid c := by
  intro c hc
  have hspace := hv.isSpace_stripped c hc
  by_contra hsolid
  have hlow : c.toNat ≤ 32 := by simpa [isSolid, hspace] using hsolid
  have hlower : Text.lowerChar c = [c] := by
    rw [Text.lowerChar_of_ascii (by omega)]
    congr 1
    unfold Char.toLower
    refine dif_neg fun hupper => ?_
    have : 65 ≤ c.toNat := hupper.1
    omega
  have hmem : c ∈ strippedHost host := List.mem_flatMap.mpr ⟨c, hc, by simp [hlower]⟩
  have hcontrol := (hv.clean c hmem).2
  simp only [isControl, Bool.or_eq_false_iff, decide_eq_false_iff_not] at hcontrol
  have hblank : c = ' ' := Char.ext (UInt32.toNat_inj.mp (show c.toNat = 32 by omega))
  rw [hblank] at hspace
  cases hspace

/-- No accepted host begins with a bracket. -/
theorem Validated.bracket_ne_head {isGlobal : IpAddress → Bool} {port : Int} {p : ParsedProxy}
    (hv : Validated isGlobal protocol host port username password p) (rest : List Char) :
    Url.unbroken host ≠ '[' :: rest := by
  intro heq
  have hstrip : Text.stripChars host = '[' :: rest.filter isSolid := by
    have hfilter := congrArg (List.filter isSolid) heq
    rw [Url.filter_unbroken, ← filter_stripChars,
      List.filter_eq_self.mpr hv.solid_stripped] at hfilter
    exact hfilter
  have hstripped : strippedHost host = '[' :: (rest.filter isSolid).flatMap Text.lowerChar := by
    rw [strippedHost, hstrip]
    rfl
  have hchecked := hv.host_eq
  unfold validateProxyHost normalizedHost at hchecked
  rw [hstripped] at hchecked
  have hfront := stripChars_append_cons (c := '[') (by decide) []
    ((rest.filter isSolid).flatMap Text.lowerChar)
  rw [List.nil_append] at hfront
  rw [hfront, List.dropWhile_nil, List.nil_append, List.flatMap_cons] at hchecked
  have hback := rdropWhile_append_cons (p := fun c => decide (c = '.')) (c := '[') (by decide) []
    ((((rest.filter isSolid).flatMap Text.lowerChar).rdropWhile Text.isSpace).flatMap
      Text.lowerChar)
  rw [List.nil_append, List.nil_append] at hback
  have hlow : Text.lowerChar '[' = ['['] := by decide
  rw [hlow, List.singleton_append, hback] at hchecked
  exact checkProxyHost_bracket hchecked

/-! ## What is read from the line -/

section Read

variable {isGlobal : IpAddress → Bool} {port : Int} {p q : ParsedProxy}

theorem Validated.netloc (hv : Validated isGlobal protocol host port username password p)
    (hcolon : ':' ∉ host) (hport : Text.int? portText = some port) :
    IsPlainNetloc (Url.unbroken host) (urlPortText portText) where
  host := fun c hc => hv.urlText_host hcolon c (Url.mem_unbroken hc)
  portText := fun c hc => urlText_portText hport c
    ((List.rdropWhile_prefix _ _).subset (Url.mem_unbroken hc))

/-- The fields of the line for a host that is no IPv6 address. -/
theorem urlFields_urlLine (hv : Validated isGlobal protocol host port username password p)
    (hne : protocol ≠ []) (hcolon : ':' ∉ host) (hport : Text.int? portText = some port) :
    urlFields (Text.stripChars (urlLine protocol host portText username password)) =
      if protocol.all (fun c => c.toNat < 128) then
        if (urlPortText portText).all IpAddress.isDecimal then
          .ok {
            protocol := protocol.map Char.toLower
            host := (Url.unbroken host).flatMap Text.lowerChar, port, username, password }
        else .error "Proxy port is invalid"
      else .error "Proxy URL must include host and port" := by
  have hnetloc := hv.netloc hcolon hport
  have hcolon' : ':' ∉ Url.unbroken host := fun hmem => hcolon (Url.mem_unbroken hmem)
  unfold urlFields
  rw [urlsplit_urlLine hv.protocol_eq hne (hnetloc.takeWhile_netloc username password).symm]
  by_cases hascii : protocol.all (fun c => c.toNat < 128) = true
  swap
  · rw [if_neg hascii, if_neg hascii]
    rfl
  rw [if_pos hascii, if_pos hascii, if_pos (hnetloc.isNetloc username password)]
  dsimp only
  rw [hnetloc.port hcolon', hnetloc.hostname hcolon']
  by_cases hdigits : (urlPortText portText).all IpAddress.isDecimal = true
  swap
  · rw [if_pos hdigits, if_neg hdigits]
  obtain ⟨-, hvalue⟩ := digitsValue_urlPortText hport (List.all_eq_true.mp hdigits)
  have hle := hv.port_le
  have hpos := hv.port_pos
  have hhost : (Url.unbroken host).flatMap Text.lowerChar ≠ [] := by
    intro hnil
    refine hv.nonempty ?_
    rw [← hv.strippedHost_unbroken, hnil]
    rfl
  rw [if_neg (not_not.mpr hdigits), if_pos (by omega), if_pos hdigits]
  dsimp only
  rw [if_neg (by rintro (h | h); exacts [hhost h, by omega])]
  obtain ⟨huser, hpass⟩ := userinfo_netloc (hnetloc.notMem (d := '@') (by decide) (by decide))
    (protocol.map Char.toLower) username password
  rw [huser, hpass, hvalue]

theorem urlFields_ok {value : List Char} {f : ProxyFields} (h : urlFields value = .ok f) :
    ∃ r, Url.urlsplit value = some r ∧ f.host = r.hostname ∧ r.netloc ≠ [] := by
  unfold urlFields at h
  split at h
  · cases h
  rename_i r hr
  split at h
  · cases h
  split_ifs at h with hhost
  obtain rfl := Except.ok.inj h
  refine ⟨r, hr, rfl, fun hnil => hhost (.inl ?_)⟩
  unfold Url.SplitResult.hostname
  rw [hnil]
  rfl

/-- No IPv6 address is read back. -/
theorem urlFields_v6 (hv : Validated isGlobal protocol host port username password p)
    (hne : protocol ≠ []) (hcolon : ':' ∈ host) (hport : Text.int? portText = some port)
    {f : ProxyFields}
    (h : urlFields (Text.stripChars (urlLine protocol host portText username password)) = .ok f)
    (hq : Validated isGlobal f.protocol f.host f.port f.username f.password q) :
    q.host ≠ p.host := by
  have hat : IsMark '@' := .inr (.inl rfl)
  have hmark : IsMark ':' := .inl rfl
  intro hsame
  obtain ⟨r, hr, hfhost, hnetloc⟩ := urlFields_ok h
  rw [urlsplit_urlLine hv.protocol_eq hne rfl] at hr
  split_ifs at hr with _ hvalid
  swap
  · obtain rfl := Option.some.inj hr
    exact hnetloc rfl
  obtain rfl := Option.some.inj hr
  have hread {c : Char} (hc : IsMark c) (hmem : c ∈ host) : c ∈ f.host := by
    rwa [← hq.mem_host hc, hsame, hv.mem_host hc]
  rw [hfhost] at hread
  by_cases hmem : '@' ∈ host
  · exact Url.notMem_afterLast '@' _
      (Url.mem_hostInfo (Url.SplitResult.mem_hostname hat (hread hat hmem)))
  · obtain ⟨rest, hafter⟩ := Url.SplitResult.bracket_of_colon hvalid (hread hmark hcolon)
    have hcredentials : ∀ c ∈ quotedCredentials username password,
        decide (c ≠ '/' ∧ c ≠ '?' ∧ c ≠ '#') = true := by
      intro c hc
      have hnot : ∀ d ∈ ['/', '?', '#'], ¬ (Url.isSafe d ∨ d = '%' ∨ d = ':' ∨ d = '@') :=
        forall_mem_of_all (by decide)
      refine decide_eq_true ⟨?_, ?_, ?_⟩ <;> rintro rfl <;>
        exact hnot _ (by simp) (quotedCredentials_chars hc)
    dsimp only at hafter
    rw [List.takeWhile_append_of_pos hcredentials, afterLast_netloc] at hafter
    · cases hhost : Url.unbroken host with
      | nil => simp [hhost] at hafter
      | cons c others =>
        refine hv.bracket_ne_head others ?_
        rw [hhost, List.cons_append, List.takeWhile_cons] at hafter
        split at hafter
        · rw [hhost, (List.cons.inj hafter).1]
        · cases hafter
    · intro hmem'
      have hsub := (List.takeWhile_sublist _).subset hmem'
      rcases List.mem_append.mp hsub with hsub | hsub
      · exact hmem (Url.mem_unbroken hsub)
      · rcases List.mem_cons.mp hsub with hsub | hsub
        · cases hsub
        · exact (urlText_portText hport _
            ((List.rdropWhile_prefix _ _).subset (Url.mem_unbroken hsub))).1 (by decide)

/-- A row with a protocol is read back exactly when its host is no IPv6 address, its protocol is
ASCII, and its port is written in ASCII digits. -/
theorem parse_urlLine_iff (hv : Validated isGlobal protocol host port username password p)
    (hne : protocol ≠ []) (hport : Text.int? portText = some port) :
    (∃ q, parseProxy isGlobal (urlLine protocol host portText username password) = .ok q ∧
      SameCredential p q ∧ q.protocol = p.protocol) ↔
    ':' ∉ host ∧ (∀ c ∈ protocol, c.toNat < 128) ∧
      (∀ c ∈ urlPortText portText, IpAddress.isDecimal c) ∧
      (Text.stripChars (urlLine protocol host portText username password)).length ≤ 4096 := by
  have hurl :
      "://".toList <:+: Text.stripChars (urlLine protocol host portText username password) := by
    rw [stripChars_urlLine hv.protocol_eq hne]
    exact ⟨protocol, quotedCredentials username password ++ host ++ ':' ::
      portText.rdropWhile Text.isSpace, by simp [urlLine]⟩
  constructor
  · rintro ⟨q, hq, hsame, -⟩
    obtain ⟨f, hf, hqv⟩ := parseProxy_ok hq
    obtain ⟨hlength, hbranch⟩ := proxyFields_ok hf
    have hfields := hbranch.resolve_right fun hother => hother.1 hurl
    have hcolon : ':' ∉ host := fun hmem => urlFields_v6 hv hne hmem hport hfields hqv hsame.host
    rw [urlFields_urlLine hv hne hcolon hport] at hfields
    split_ifs at hfields with hascii hdigits
    exact ⟨hcolon, all_ascii_iff.mp hascii, List.all_eq_true.mp hdigits, hlength⟩
  · rintro ⟨hcolon, hascii, hdigits, hlength⟩
    have hfields := urlFields_urlLine hv hne hcolon hport
    rw [if_pos (all_ascii_iff.mpr hascii), if_pos (List.all_eq_true.mpr hdigits)] at hfields
    have hnonempty : Text.stripChars (urlLine protocol host portText username password) ≠ [] := by
      rw [stripChars_urlLine hv.protocol_eq hne]
      simp [urlLine]
    have hproxy : proxyFields (urlLine protocol host portText username password) = .ok {
        protocol := protocol.map Char.toLower
        host := (Url.unbroken host).flatMap Text.lowerChar, port, username, password } := by
      unfold proxyFields
      dsimp only
      rw [if_neg hnonempty, if_neg (by omega), if_pos hurl, hfields]
    have hstripped := hv.strippedHost_unbroken
    refine ⟨p, ?_, ⟨rfl, rfl, rfl, rfl⟩, rfl⟩
    unfold parseProxy
    rw [hproxy]
    exact validate_ok_iff.mpr { hv with
      nonempty := hstripped ▸ hv.nonempty, clean := hstripped ▸ hv.clean
      host_length := hstripped ▸ hv.host_length, host_eq := hstripped ▸ hv.host_eq
      protocol_eq := normalizedProtocol_scheme hv.protocol_eq hne hascii }

end Read

end UrlLine

end EarnProxy
