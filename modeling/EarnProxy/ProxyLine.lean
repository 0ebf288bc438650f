import EarnProxy.ProxyHosts

/-!
# Lines whose fields are separated by colons

`ParsedProxy.raw` and the CSV import write the fields of a proxy in one format. The parser looks for
`://` and for `@` anywhere in the line, so what it reads depends on the characters of the
credentials.
-/

namespace EarnProxy

/-! ## Blanks at the ends -/

theorem rdropWhile_append_cons {p : Char → Bool} {c : Char} (hc : p c = false) (as bs : List Char) :
    (as ++ c :: bs).rdropWhile p = as ++ c :: bs.rdropWhile p := by
  induction bs using List.reverseRecOn with
  | nil => exact List.rdropWhile_concat_neg p as c (by simp [hc])
  | append_singleton bs b ih =>
    have hassoc : as ++ c :: (bs ++ [b]) = (as ++ c :: bs) ++ [b] := by simp
    rw [hassoc]
    by_cases hb : p b
    · rw [List.rdropWhile_concat_pos p _ b hb, List.rdropWhile_concat_pos p _ b hb, ih]
    · rw [List.rdropWhile_concat_neg p _ b hb, List.rdropWhile_concat_neg p _ b hb, hassoc]

theorem dropWhile_append_cons {p : Char → Bool} {c : Char} (hc : p c = false) (as bs : List Char) :
    (as ++ c :: bs).dropWhile p = as.dropWhile p ++ c :: bs := by
  induction as with
  | nil => simp [hc]
  | cons a as ih =>
    rw [List.cons_append, List.dropWhile_cons, List.dropWhile_cons]
    split
    · exact ih
    · rfl

theorem stripChars_append_cons {c : Char} (hc : Text.isSpace c = false) (as bs : List Char) :
    Text.stripChars (as ++ c :: bs) =
      as.dropWhile Text.isSpace ++ c :: bs.rdropWhile Text.isSpace := by
  unfold Text.stripChars
  rw [dropWhile_append_cons hc]
  exact rdropWhile_append_cons hc _ bs

theorem filter_dropWhile {p q : Char → Bool} (h : ∀ c, p c → q c = false) (cs : List Char) :
    (cs.dropWhile p).filter q = cs.filter q := by
  induction cs with
  | nil => rfl
  | cons c cs ih =>
    rw [List.dropWhile_cons]
    split
    · rename_i hc
      simp [ih, h c hc]
    · rfl

/-- A character that no cleaning of a line removes. -/
def isSolid (c : Char) : Bool := 32 < c.toNat && !Text.isSpace c

theorem filter_stripChars (cs : List Char) :
    (Text.stripChars cs).filter isSolid = cs.filter isSolid := by
  have hspace : ∀ c, Text.isSpace c → isSolid c = false := fun c hc => by simp [isSolid, hc]
  unfold Text.stripChars
  rw [List.filter_reverse, filter_dropWhile hspace, List.filter_reverse, List.reverse_reverse,
    filter_dropWhile hspace]

namespace Url

/-- The tabs and line ends that `urlsplit` removes. -/
def unbroken (cs : List Char) : List Char := cs.filter fun c => c ≠ '\t' ∧ c ≠ '\r' ∧ c ≠ '\n'

theorem filter_unbroken (cs : List Char) : (unbroken cs).filter isSolid = cs.filter isSolid := by
  unfold unbroken
  rw [List.filter_filter]
  refine List.filter_congr fun c _ => ?_
  by_cases hc : isSolid c
  · have hne : c ≠ '\t' ∧ c ≠ '\r' ∧ c ≠ '\n' := by
      refine ⟨?_, ?_, ?_⟩ <;> rintro rfl <;> exact absurd hc (by decide)
    simp [hc, hne]
  · simp [hc]

theorem filter_cleaned (cs : List Char) : (cleaned cs).filter isSolid = cs.filter isSolid := by
  have hlow : ∀ c : Char, decide (c.toNat ≤ 32) → isSolid c = false := fun c hc => by
    simp [isSolid, of_decide_eq_true hc]
  exact (filter_unbroken _).trans (filter_dropWhile hlow cs)

end Url

theorem IsMark.solid {c : Char} (hc : IsMark c) : isSolid c := by
  rcases hc with rfl | rfl | rfl <;> decide

/-! ## Ports -/

namespace Text

/-- The blanks of `isspace`, as first and last code points. -/
def spaceRanges : List (Nat × Nat) :=
  [(9, 13), (28, 32), (0x85, 0x85), (0xA0, 0xA0), (0x1680, 0x1680), (0x2000, 0x200A),
    (0x2028, 0x2029), (0x202F, 0x202F), (0x205F, 0x205F), (0x3000, 0x3000)]

theorem exists_spaceRange {c : Char} (hc : isSpace c) :
    ∃ r ∈ spaceRanges, r.1 ≤ c.toNat ∧ c.toNat ≤ r.2 := by
  unfold isSpace at hc
  dsimp only at hc
  generalize c.toNat = n at hc ⊢
  simp [spaceRanges] at hc ⊢
  omega

theorem decimal?_range {c : Char} (hc : (decimal? c).isSome) :
    ∃ first ∈ decimalZeros, first ≤ c.toNat ∧ c.toNat < first + 10 := by
  unfold decimal? at hc
  rw [Option.isSome_map, List.find?_isSome] at hc
  simpa using hc

/-- A digit is solid. -/
theorem isSolid_decimal {c : Char} (hc : (decimal? c).isSome) : isSolid c := by
  obtain ⟨first, hfirst, hlow, hhigh⟩ := decimal?_range hc
  have hrange : ∀ first ∈ decimalZeros, 32 < first ∧
      ∀ r ∈ spaceRanges, first + 10 ≤ r.1 ∨ r.2 < first := by decide
  have hspace : isSpace c = false := by
    by_contra h
    obtain ⟨r, hr, hr1, hr2⟩ := exists_spaceRange (by simpa using h)
    rcases (hrange first hfirst).2 r hr with h | h <;> omega
  have h32 := (hrange first hfirst).1
  simp only [isSolid, hspace, Bool.not_false, Bool.and_true, decide_eq_true_eq]
  omega

theorem isSpace_of_isNumberSpace {c : Char} (hc : isNumberSpace c) : isSpace c := by
  unfold isNumberSpace at hc
  simp only [Bool.or_eq_true, Bool.and_eq_true, decide_eq_true_eq, beq_iff_eq] at hc
  rcases hc with (⟨h1, h2⟩ | h) | h
  · unfold isSpace
    simp [h1, h2]
  · unfold isSpace
    simp [h]
  · exact h.2

/-- The characters of a number: digits, underscores and a sign. -/
def IsNumeral (c : Char) : Prop := c = '+' ∨ c = '-' ∨ c = '_' ∨ (decimal? c).isSome

theorem IsNumeral.solid {c : Char} (hc : IsNumeral c) : isSolid c := by
  rcases hc with rfl | rfl | rfl | h
  · decide
  · decide
  · decide
  · exact isSolid_decimal h

theorem IsNumeral.not_mark {c : Char} (hc : IsNumeral c) : ¬ IsMark c := by
  rintro (rfl | rfl | rfl) <;>
    exact absurd hc (by unfold IsNumeral; decide)

theorem groupedValue?_chars {base : Nat} {digit? : Char → Option Nat} {cs : List Char} {n : Nat}
    (h : groupedValue? base digit? cs = some n) :
    cs ≠ [] ∧ ∀ c ∈ cs, c = '_' ∨ (digit? c).isSome := by
  unfold groupedValue? at h
  dsimp only at h
  split_ifs at h with hgroups
  obtain ⟨digits, hdigits, -⟩ := Option.map_eq_some_iff.mp h
  refine ⟨?_, fun c hc => ?_⟩
  · rintro rfl
    exact hgroups (by decide)
  · rcases mem_splitOn '_' hc with hc | ⟨part, hpart, hc⟩
    · exact .inl hc
    · exact .inr (isSome_of_mapM hdigits c (List.mem_flatten.mpr ⟨part, hpart, hc⟩))

theorem natural?_chars {cs : List Char} {n : Nat} (h : int?.natural? cs = some n) :
    cs ≠ [] ∧ ∀ c ∈ cs, IsNumeral c := by
  unfold int?.natural? at h
  split_ifs at h
  obtain ⟨hne, hchars⟩ := groupedValue?_chars h
  refine ⟨hne, fun c hc => ?_⟩
  rcases hchars c hc with h | h
  · exact .inr (.inr (.inl h))
  · exact .inr (.inr (.inr h))

/-- What stands between the blanks of a number. -/
theorem int?_core {cs : List Char} {n : Int} (h : int? cs = some n) :
    (cs.rdropWhile isNumberSpace).dropWhile isNumberSpace ≠ [] ∧
      ∀ c ∈ (cs.rdropWhile isNumberSpace).dropWhile isNumberSpace, IsNumeral c := by
  unfold int? at h
  generalize (cs.rdropWhile isNumberSpace).dropWhile isNumberSpace = core at h ⊢
  split at h
  · obtain ⟨m, hm, -⟩ := Option.map_eq_some_iff.mp h
    exact ⟨List.cons_ne_nil _ _, List.forall_mem_cons.mpr ⟨.inr (.inl rfl), (natural?_chars hm).2⟩⟩
  · obtain ⟨m, hm, -⟩ := Option.map_eq_some_iff.mp h
    exact ⟨List.cons_ne_nil _ _, List.forall_mem_cons.mpr ⟨.inl rfl, (natural?_chars hm).2⟩⟩
  · obtain ⟨m, hm, -⟩ := Option.map_eq_some_iff.mp h
    exact natural?_chars hm

theorem int?_chars {cs : List Char} {n : Int} (h : int? cs = some n) :
    ∀ c ∈ cs, isNumberSpace c ∨ IsNumeral c := by
  intro c hc
  by_cases hspace : isNumberSpace c
  · exact .inl hspace
  · refine .inr ((int?_core h).2 c ?_)
    rwa [mem_dropWhile_of_not (by simpa using hspace),
      mem_rdropWhile_of_not (by simpa using hspace)]

theorem int?_marks {cs : List Char} {n : Int} (h : int? cs = some n) {c : Char} (hc : IsMark c) :
    c ∉ cs := by
  intro hmem
  rcases int?_chars h c hmem with hspace | hnumeral
  · rcases hc with rfl | rfl | rfl <;> exact absurd hspace (by decide)
  · exact hnumeral.not_mark hc

theorem int?_solid {cs : List Char} {n : Int} (h : int? cs = some n) : ∃ c ∈ cs, isSolid c := by
  obtain ⟨hne, hchars⟩ := int?_core h
  obtain ⟨c, rest, hcore⟩ := List.exists_cons_of_ne_nil hne
  have hc : c ∈ (cs.rdropWhile isNumberSpace).dropWhile isNumberSpace := by rw [hcore]; simp
  refine ⟨c, ?_, (hchars c hc).solid⟩
  exact (List.rdropWhile_prefix _ _).subset ((List.dropWhile_sublist _).subset hc)

theorem rdropWhile_isSpace {cs : List Char} {n : Int} (h : int? cs = some n) :
    cs.rdropWhile isSpace = cs.rdropWhile isNumberSpace := by
  have hnumber := int?_chars h
  clear h
  induction cs using List.reverseRecOn with
  | nil => rfl
  | append_singleton cs c ih =>
    rcases hnumber c (by simp) with hc | hc
    · rw [List.rdropWhile_concat_pos _ _ _ (isSpace_of_isNumberSpace hc),
        List.rdropWhile_concat_pos _ _ _ hc]
      exact ih fun d hd => hnumber d (List.mem_append_left _ hd)
    · have hspace : ¬ isSpace c := by
        have := hc.solid
        simp only [isSolid, Bool.and_eq_true, Bool.not_eq_true'] at this
        simp [this.2]
      rw [List.rdropWhile_concat_neg _ _ _ hspace,
        List.rdropWhile_concat_neg _ _ _ fun hn => hspace (isSpace_of_isNumberSpace hn)]

/-- Blanks behind a number do not change it. -/
theorem int?_rdropWhile {cs : List Char} {n : Int} (h : int? cs = some n) :
    int? (cs.rdropWhile isSpace) = some n := by
  rw [rdropWhile_isSpace h]
  unfold int? at h ⊢
  rwa [List.rdropWhile_idempotent]

theorem decimal?_digitChar {d : Nat} (hd : d < 10) : decimal? d.digitChar = some d := by
  have hall : ∀ d : Fin 10, decimal? d.val.digitChar = some d.val := by decide
  exact hall ⟨d, hd⟩

theorem mapM_decimal?_toDigits (n : Nat) :
    ∃ digits, (Nat.toDigits 10 n).mapM decimal? = some digits ∧
    digits.foldl (fun n d => 10 * n + d) 0 = n := by
  induction n using Nat.strongRecOn with
  | _ n ih =>
    rw [Nat.toDigits_eq_if (by decide)]
    split
    · rename_i hlt
      refine ⟨[n], ?_, by simp⟩
      simp [decimal?_digitChar hlt]
    · rename_i hle
      obtain ⟨digits, hdigits, hvalue⟩ := ih (n / 10) (by omega)
      refine ⟨digits ++ [n % 10], ?_, ?_⟩
      · simp [List.mapM_append, hdigits, decimal?_digitChar (Nat.mod_lt n (by decide : 0 < 10))]
      · rw [List.foldl_append, hvalue, List.foldl_cons, List.foldl_nil]
        omega

/-- A text without blanks and sign is read digit by digit. -/
theorem int?_digits {cs : List Char} {n : Nat} (hne : cs ≠ []) (hcs : ∀ c ∈ cs, (decimal? c).isSome)
    (hlength : cs.length ≤ 4300) (hvalue : (cs.mapM decimal?).map
      (fun digits => digits.foldl (fun n d => 10 * n + d) 0) = some n) :
    int? cs = some (n : Int) := by
  have hblank : ∀ c ∈ cs, isNumberSpace c = false := fun c hc => by
    have hsolid := isSolid_decimal (hcs c hc)
    simp only [isSolid, Bool.and_eq_true, Bool.not_eq_true'] at hsolid
    by_contra h
    rw [isSpace_of_isNumberSpace (by simpa using h)] at hsolid
    cases hsolid.2
  have hcore : (cs.rdropWhile isNumberSpace).dropWhile isNumberSpace = cs := by
    have hright : cs.rdropWhile isNumberSpace = cs :=
      List.rdropWhile_eq_self_iff.mpr fun hl => by simp [hblank _ (List.getLast_mem hl)]
    rw [hright]
    obtain ⟨c, rest, rfl⟩ := List.exists_cons_of_ne_nil hne
    simp [hblank c]
  have hunderscore : '_' ∉ cs := fun h => absurd (hcs _ h) (by decide)
  have hnatural : int?.natural? cs = some n := by
    have hfilter := List.length_filter_le (fun c => decide (c ≠ '_')) cs
    unfold int?.natural? groupedValue?
    rw [if_neg (by omega), List.splitOn_eq_singleton hunderscore]
    simpa [hne] using hvalue
  have hsign : cs.head? ≠ some '-' ∧ cs.head? ≠ some '+' := by
    constructor <;> intro h <;> exact absurd (hcs _ (List.mem_of_mem_head? h)) (by decide)
  unfold int?
  rw [hcore]
  split
  · exact absurd rfl hsign.1
  · exact absurd rfl hsign.2
  · rw [hnatural]
    rfl

/-- A number that was printed is read back. -/
theorem int?_toString {n : Nat} (hn : n ≤ 65535) : int? (toString n).toList = some (n : Int) := by
  have htext : (toString n).toList = Nat.toDigits 10 n := by
    rw [Nat.toString_eq_ofList_toDigits, String.toList_ofList]
  have hdecimal : ∀ c ∈ Nat.toDigits 10 n, (decimal? c).isSome :=
    IpAddress.toDigits_all (by decide) (fun d hd => by rw [decimal?_digitChar hd]; rfl) n
  have hlength : (Nat.toDigits 10 n).length ≤ 5 :=
    (Nat.length_toDigits_le_iff (by decide) (by decide)).mpr (by omega)
  obtain ⟨digits, hdigits, hvalue⟩ := mapM_decimal?_toDigits n
  rw [htext]
  exact int?_digits Nat.toDigits_ne_nil hdecimal (by omega)
    (by rw [hdigits, Option.map_some, hvalue])

end Text

/-! ## Cuts of a text -/

namespace Url

theorem partition_some {c : Char} {cs front rest : List Char}
    (h : partition c cs = (front, some rest)) : cs = front ++ c :: rest ∧ c ∉ front := by
  have hcs := List.takeWhile_append_dropWhile (p := (· ≠ c)) (l := cs)
  unfold partition at h
  obtain ⟨rfl, hrest⟩ := Prod.mk.inj h
  refine ⟨?_, fun hmem => by simpa using List.mem_takeWhile_imp hmem⟩
  split at hrest
  · cases hrest
  · rename_i d rest' hdrop
    obtain rfl := Option.some.inj hrest
    have hd : d = c := by
      have := List.head?_dropWhile_not (· ≠ c) cs
      rw [hdrop] at this
      simpa using this
    rw [hdrop, hd] at hcs
    exact hcs.symm

theorem beforeLast?_some {c : Char} {cs front : List Char} (h : beforeLast? c cs = some front) :
    cs = front ++ c :: afterLast c cs ∧ c ∉ afterLast c cs := by
  have hpart : partition c cs.reverse = ((afterLast c cs).reverse, some front.reverse) := by
    unfold beforeLast? at h
    unfold partition afterLast
    rw [List.reverse_reverse]
    split at h
    · cases h
    · rw [← Option.some.inj h, List.reverse_reverse]
  obtain ⟨heq, hnot⟩ := partition_some hpart
  refine ⟨?_, by simpa using hnot⟩
  simpa using congrArg List.reverse heq

theorem beforeLast?_none {c : Char} {cs : List Char} (h : beforeLast? c cs = none) : c ∉ cs := by
  unfold beforeLast? at h
  split at h
  · rename_i hdrop
    intro hmem
    have := List.dropWhile_eq_nil_iff.mp hdrop c (List.mem_reverse.mpr hmem)
    simp at this
  · cases h

/-- A network location stands behind two slashes, at the start or behind the first colon. -/
theorem urlsplit_netloc {url : List Char} {r : SplitResult} (h : urlsplit url = some r)
    (hnetloc : r.netloc ≠ []) : ∃ front rest, cleaned url = front ++ '/' :: '/' :: rest ∧
      (front = [] ∨ ∃ scheme, ':' ∉ scheme ∧ front = scheme ++ [':']) ∧
      r.netloc = rest.takeWhile (fun c => c ≠ '/' ∧ c ≠ '?' ∧ c ≠ '#') ∧ isNetloc r.netloc := by
  have hscheme : cleaned url = (splitScheme (cleaned url)).2 ∨
      ∃ scheme, ':' ∉ scheme ∧ cleaned url = scheme ++ ':' :: (splitScheme (cleaned url)).2 := by
    unfold splitScheme
    split
    · rename_i c scheme rest hpart
      split
      · obtain ⟨heq, hnot⟩ := partition_some hpart
        exact .inr ⟨c :: scheme, hnot, heq⟩
      · exact .inl rfl
    · exact .inl rfl
  unfold urlsplit at h
  split at h
  · rename_i scheme rest hsplit
    rw [hsplit] at hscheme
    dsimp only at h
    split_ifs at h with hvalid
    obtain rfl := Option.some.inj h
    rcases hscheme with heq | ⟨scheme, hnot, heq⟩
    · exact ⟨[], rest, heq, .inl rfl, rfl, hvalid⟩
    · exact ⟨scheme ++ [':'], rest, by rw [heq]; simp, .inr ⟨scheme, hnot, rfl⟩, rfl, hvalid⟩
  · obtain rfl := Option.some.inj h
    exact absurd rfl hnetloc

end Url

/-! ## The three grammars on a colon-separated line -/

theorem endpointFields_ok {credentials endpoint : List Char} {f : ProxyFields}
    (h : endpointFields credentials endpoint = .ok f) :
    credentials = f.username ++ ':' :: f.password ∧ ∃ rest, endpoint = f.host ++ rest := by
  unfold endpointFields at h
  split at h
  · rename_i username password host hcredentials hendpoint
    split at h
    · cases h
    · obtain rfl := Except.ok.inj h
      exact ⟨(Url.partition_some hcredentials).1, _, (Url.beforeLast?_some hendpoint).1⟩
  · cases h

theorem notMem_of_mem_splitOn {sep : Char} {cs part : List Char} (h : part ∈ cs.splitOn sep) :
    sep ∉ part := by
  induction cs generalizing part with
  | nil =>
    rw [List.splitOn_eq_singleton (by simp), List.mem_singleton] at h
    simp [h]
  | cons c cs ih =>
    rw [List.splitOn_cons_eq_if_modifyHead] at h
    split at h
    · rcases List.mem_cons.mp h with rfl | h
      · simp
      · exact ih h
    · rename_i hne
      obtain ⟨first, others, hsplit⟩ := List.exists_cons_of_ne_nil (List.splitOn_ne_nil sep cs)
      rw [hsplit, List.modifyHead_cons, List.mem_cons] at h
      rcases h with rfl | h
      · have hfirst : sep ∉ first := ih (by rw [hsplit]; simp)
        have hc : sep ≠ c := fun heq => hne (by simp [heq])
        simp [hc, hfirst]
      · exact ih (by rw [hsplit]; exact List.mem_cons_of_mem _ h)

theorem partsFields_ok {cs : List Char} {f : ProxyFields}
    (h : partsFields (cs.splitOn ':') = .ok f) : ':' ∉ f.host ∧ ':' ∉ f.username := by
  have hparts : ∀ part ∈ cs.splitOn ':', ':' ∉ part := fun part hpart => notMem_of_mem_splitOn hpart
  unfold partsFields at h
  split at h
  · rename_i host portText credentials hsplit
    rw [hsplit] at hparts
    split at h
    · cases h
    · obtain rfl := Except.ok.inj h
      refine ⟨hparts host (by simp), ?_⟩
      cases credentials with
      | nil => simp
      | cons username rest => exact hparts username (by simp)
  · cases h

section ColonLine

/-- The line of a proxy with its fields in order. The credentials are written if there are any. -/
def colonLine (host portText username password : List Char) : List Char :=
  host ++ ':' :: portText ++
    (if username = [] ∧ password = [] then [] else ':' :: username ++ ':' :: password)

variable {host portText username password : List Char} {port : Int}

/-- Two slashes behind the first colon or at the start. -/
theorem not_slashes {front rest A B : List Char} {x : Char} (hA : '/' ∉ A) (hx : x ≠ '/')
    (hfront : front = [] ∨ ∃ scheme, ':' ∉ scheme ∧ front = scheme ++ [':'])
    (h : A ++ ':' :: x :: B = front ++ '/' :: '/' :: rest) : False := by
  rcases hfront with rfl | ⟨scheme, hscheme, rfl⟩
  · cases A with
    | nil => exact absurd (List.cons.inj h).1 (by decide)
    | cons a A => exact hA (by simp [(List.cons.inj h).1])
  · induction A generalizing scheme with
    | nil =>
      cases scheme with
      | nil => exact hx (List.cons.inj (List.cons.inj h).2).1
      | cons s scheme =>
        have hs : ':' = s := (List.cons.inj h).1
        exact hscheme (hs ▸ List.mem_cons_self)
    | cons a A ih =>
      obtain ⟨-, hA'⟩ := not_or.mp (List.mem_cons.not.mp hA)
      cases scheme with
      | nil =>
        have htail := (List.cons.inj h).2
        cases A with
        | nil => exact absurd (List.cons.inj htail).1 (by decide)
        | cons b A => exact hA' (by simp [(List.cons.inj htail).1])
      | cons s scheme =>
        exact ih hA' scheme (not_or.mp (List.mem_cons.not.mp hscheme)).2 (List.cons.inj h).2

/-- A line whose fields are separated by colons is no URL. -/
theorem urlFields_colonLine (hslash : '/' ∉ host) (hport : Text.int? portText = some port)
    (f : ProxyFields) :
    urlFields (Text.stripChars (colonLine host portText username password)) ≠ .ok f := by
  intro h
  unfold urlFields at h
  split at h
  · cases h
  rename_i r hr
  split at h
  · cases h
  split_ifs at h with hhost
  have hnetloc : r.netloc ≠ [] := by
    intro hnil
    refine hhost (.inl ?_)
    unfold Url.SplitResult.hostname
    rw [hnil]
    rfl
  obtain ⟨front, rest, hcleaned, hfront, -⟩ := Url.urlsplit_netloc hr hnetloc
  have hsolid := congrArg (List.filter isSolid) hcleaned
  rw [Url.filter_cleaned, filter_stripChars] at hsolid
  -- the characters behind the first colon belong to the host or to the port
  obtain ⟨d, hd, hdsolid⟩ := Text.int?_solid hport
  obtain ⟨x, others, hx⟩ : ∃ x others, portText.filter isSolid = x :: others :=
    List.exists_cons_of_ne_nil (List.ne_nil_of_mem (List.mem_filter.mpr ⟨hd, hdsolid⟩))
  have hxslash : x ≠ '/' := by
    rintro rfl
    have : '/' ∈ portText.filter isSolid := by rw [hx]; simp
    exact Text.int?_marks hport (.inr (.inr rfl)) (List.mem_of_mem_filter this)
  have hcolon : isSolid ':' := IsMark.solid (.inl rfl)
  have hslash' : isSolid '/' := IsMark.solid (.inr (.inr rfl))
  simp only [colonLine, List.filter_append, List.filter_cons, hcolon, hslash', if_true, hx,
    List.append_assoc, List.cons_append] at hsolid
  refine not_slashes (fun hmem => hslash (List.mem_of_mem_filter hmem)) hxslash ?_ hsolid
  rcases hfront with rfl | ⟨scheme, hscheme, rfl⟩
  · exact .inl rfl
  · refine .inr ⟨scheme.filter isSolid, fun hmem => hscheme (List.mem_of_mem_filter hmem), ?_⟩
    simp [hcolon]

/-- Credentials that the parser leaves as they are in a line whose fields are separated by
colons. -/
structure PlainCredentials (username password : List Char) : Prop where
  username_colon : ':' ∉ username
  username_at : '@' ∉ username
  password_at : '@' ∉ password
  username_slashes : ¬ "//".toList <+: username
  password_slashes : ¬ "//".toList <+: password
  password_url : ¬ "://".toList <:+: password
  password_blank : ∀ c ∈ password.getLast?, Text.isSpace c = false

theorem plainCredentials_nil : PlainCredentials [] [] :=
  ⟨by simp, by simp, by simp, by decide, by decide, by decide, by simp⟩

theorem stripChars_colonLine (host portText username password : List Char) :
    Text.stripChars (colonLine host portText username password) =
      host.dropWhile Text.isSpace ++ ':' ::
        if username = [] ∧ password = [] then portText.rdropWhile Text.isSpace
        else portText ++ ':' :: (username ++ ':' :: password.rdropWhile Text.isSpace) := by
  have hcolon : Text.isSpace ':' = false := by decide
  unfold colonLine
  rw [List.append_assoc, List.cons_append, stripChars_append_cons hcolon]
  split
  · simp
  · rw [List.cons_append, rdropWhile_append_cons hcolon, rdropWhile_append_cons hcolon]

/-- A colon line without `://` and `@`, and without a colon in the host and the username. -/
theorem proxyFields_colonLine (hhost : ':' ∉ host) (huser : ':' ∉ username)
    (hport : Text.int? portText = some port)
    (hurl : ¬ "://".toList <:+: Text.stripChars (colonLine host portText username password))
    (hat : '@' ∉ Text.stripChars (colonLine host portText username password))
    (hlength : (Text.stripChars (colonLine host portText username password)).length ≤ 4096) :
    proxyFields (colonLine host portText username password) = .ok {
      host := host.dropWhile Text.isSpace, port, username
      password := password.rdropWhile Text.isSpace } := by
  have hnone : Url.beforeLast? '@' (Text.stripChars (colonLine host portText username password)) =
      none := by
    cases hbefore :
      Url.beforeLast? '@' (Text.stripChars (colonLine host portText username password)) with
    | none => rfl
    | some front => exact absurd (by rw [(Url.beforeLast?_some hbefore).1]; simp) hat
  have hhost' : ':' ∉ host.dropWhile Text.isSpace := by
    rwa [mem_dropWhile_of_not (by decide)]
  have hportText : ':' ∉ portText := Text.int?_marks hport (.inl rfl)
  unfold proxyFields
  dsimp only
  rw [hnone, if_neg (by rw [stripChars_colonLine]; simp), if_neg (by omega), if_neg hurl,
    stripChars_colonLine, List.splitOn_append_cons_self_of_not_mem hhost']
  dsimp only
  split_ifs with hnil
  · obtain ⟨rfl, rfl⟩ := hnil
    have hportText' : ':' ∉ portText.rdropWhile Text.isSpace := by
      rwa [mem_rdropWhile_of_not (by decide)]
    rw [List.splitOn_eq_singleton hportText', partsFields, Text.int?_rdropWhile hport]
    rfl
  · rw [List.splitOn_append_cons_self_of_not_mem hportText,
      List.splitOn_append_cons_self_of_not_mem huser, partsFields, hport]
    dsimp only
    rw [List.tail_cons, List.intercalate_splitOn]
    rfl

theorem slashes_behind {as bs : List Char} (has : ':' ∉ as)
    (h : "://".toList <:+: as ++ ':' :: bs) : "//".toList <+: bs ∨ "://".toList <:+: bs := by
  induction as with
  | nil =>
    rcases List.infix_cons_iff.mp h with h | h
    · exact .inl (List.cons_prefix_cons.mp h).2
    · exact .inr h
  | cons a as ih =>
    obtain ⟨ha, has⟩ := not_or.mp (List.mem_cons.not.mp has)
    rcases List.infix_cons_iff.mp h with h | h
    · exact absurd (List.cons_prefix_cons.mp h).1 ha
    · exact ih has h

theorem slashes_front {as bs : List Char} (h : "//".toList <+: as ++ ':' :: bs) :
    "//".toList <+: as := by
  have hslashes : "//".toList = ['/', '/'] := rfl
  rw [hslashes] at h ⊢
  cases as with
  | nil => exact absurd (List.cons_prefix_cons.mp h).1 (by decide)
  | cons a as =>
    obtain ⟨rfl, htail⟩ := List.cons_prefix_cons.mp h
    cases as with
    | nil => exact absurd (List.cons_prefix_cons.mp htail).1 (by decide)
    | cons b as =>
      obtain ⟨rfl, -⟩ := List.cons_prefix_cons.mp htail
      exact ⟨as, rfl⟩

/-- No plain credentials make a URL of the line. -/
theorem PlainCredentials.no_url (h : PlainCredentials username password) (hhost : ':' ∉ host)
    (hport : Text.int? portText = some port) :
    ¬ "://".toList <:+: colonLine host portText username password := by
  have hslashes : ¬ "//".toList <+: portText := fun hstart =>
    Text.int?_marks hport (.inr (.inr rfl)) (hstart.subset (by simp))
  have hportText : ':' ∉ portText := Text.int?_marks hport (.inl rfl)
  unfold colonLine
  rw [List.append_assoc, List.cons_append]
  intro hinside
  split_ifs at hinside with hnil
  · rw [List.append_nil] at hinside
    rcases slashes_behind hhost hinside with hinside | hinside
    · exact hslashes hinside
    · exact hportText (hinside.subset (by simp))
  · rcases slashes_behind hhost hinside with hinside | hinside
    · exact hslashes (slashes_front hinside)
    rcases slashes_behind hportText hinside with hinside | hinside
    · exact h.username_slashes (slashes_front hinside)
    rcases slashes_behind h.username_colon hinside with hinside | hinside
    · exact h.password_slashes hinside
    · exact h.password_url hinside

/-- The branch of `parse_proxy` that read the line. -/
theorem proxyFields_ok {raw : List Char} {f : ProxyFields} (h : proxyFields raw = .ok f) :
    (Text.stripChars raw).length ≤ 4096 ∧
      (urlFields (Text.stripChars raw) = .ok f ∨ ¬ "://".toList <:+: Text.stripChars raw ∧
        ((∃ credentials, Url.beforeLast? '@' (Text.stripChars raw) = some credentials ∧
            endpointFields credentials (Url.afterLast '@' (Text.stripChars raw)) = .ok f) ∨
          '@' ∉ Text.stripChars raw ∧
            partsFields ((Text.stripChars raw).splitOn ':') = .ok f)) := by
  unfold proxyFields at h
  dsimp only at h
  obtain ⟨-, h⟩ := ok_of_if h
  obtain ⟨hlength, h⟩ := ok_of_if h
  refine ⟨by omega, ?_⟩
  split at h
  · exact .inl h
  · rename_i hurl
    refine .inr ⟨hurl, ?_⟩
    split at h
    · exact .inl ⟨_, ‹_›, h⟩
    · exact .inr ⟨Url.beforeLast?_none ‹_›, h⟩

theorem parseProxy_ok {isGlobal : IpAddress → Bool} {raw : List Char} {p : ParsedProxy}
    (h : parseProxy isGlobal raw = .ok p) : ∃ f, proxyFields raw = .ok f ∧
      Validated isGlobal f.protocol f.host f.port f.username f.password p := by
  unfold parseProxy at h
  split at h
  · cases h
  · exact ⟨_, ‹_›, validate_ok_iff.mp h⟩

/-- Two proxies with one upstream and one pair of credentials. -/
structure SameCredential (p q : ParsedProxy) : Prop where
  host : q.host = p.host
  port : q.port = p.port
  username : q.username = p.username
  password : q.password = p.password

theorem SameCredential.fingerprint {p q : ParsedProxy} (h : SameCredential p q) :
    credentialFingerprint q = credentialFingerprint p := by
  unfold credentialFingerprint
  rw [h.host, h.port, h.username, h.password]

variable {isGlobal : IpAddress → Bool} {p q : ParsedProxy}

/-- The `@` of a line are those of the host and of the credentials. -/
theorem count_at_colonLine (host username password : List Char)
    (hport : Text.int? portText = some port) :
    (Text.stripChars (colonLine host portText username password)).count '@' =
      host.count '@' + (username.count '@' + password.count '@') := by
  have hsolid : isSolid '@' := IsMark.solid (.inr (.inl rfl))
  have hportText : portText.count '@' = 0 :=
    List.count_eq_zero.mpr (Text.int?_marks hport (.inr (.inl rfl)))
  rw [← List.count_filter hsolid, filter_stripChars, List.count_filter hsolid]
  unfold colonLine
  split_ifs with hnil
  · simp [hnil, hportText]
  · simp [hportText]

/-- No line with an `@` is read as the fields that were written. -/
theorem endpointFields_colonLine (hport : Text.int? portText = some port)
    (hmarks : ∀ c, IsMark c → (c ∈ p.host.toList ↔ c ∈ host)) {credentials : List Char}
    (hbefore : Url.beforeLast? '@' (Text.stripChars (colonLine host portText
      p.username.toList p.password.toList)) = some credentials) {f : ProxyFields}
    (h : endpointFields credentials (Url.afterLast '@' (Text.stripChars (colonLine host portText
      p.username.toList p.password.toList))) = .ok f)
    (hq : Validated isGlobal f.protocol f.host f.port f.username f.password q) :
    ¬ SameCredential p q := by
  intro hsame
  have hat : IsMark '@' := .inr (.inl rfl)
  have hcount := count_at_colonLine host p.username.toList p.password.toList hport
  obtain ⟨hvalue, hafter⟩ := Url.beforeLast?_some hbefore
  obtain ⟨hcredentials, rest, hendpoint⟩ := endpointFields_ok h
  rw [← hq.username_eq, ← hq.password_eq, hsame.username, hsame.password] at hcredentials
  -- the last `@` is one of the host, but the host that was read has none
  have hhost : host.count '@' = 1 := by
    rw [hvalue, hcredentials] at hcount
    have hzero := List.count_eq_zero.mpr hafter
    simp [hzero] at hcount
    omega
  have hmem : '@' ∈ host := List.count_pos_iff.mp (by omega)
  rw [← hmarks _ hat, ← hsame.host, hq.mem_host hat] at hmem
  exact hafter (by rw [hendpoint]; exact List.mem_append_left _ hmem)

/-- A colon line that is read as the fields that were written. -/
theorem plain_of_parse (hslash : '/' ∉ host)
    (hmarks : ∀ c, IsMark c → (c ∈ p.host.toList ↔ c ∈ host))
    (hport : Text.int? portText = some port)
    (hparse :
      parseProxy isGlobal (colonLine host portText p.username.toList p.password.toList) = .ok q)
    (hsame : SameCredential p q) :
    ':' ∉ host ∧ PlainCredentials p.username.toList p.password.toList ∧
      (Text.stripChars (colonLine host portText p.username.toList p.password.toList)).length ≤
        4096 := by
  have hcolon : IsMark ':' := .inl rfl
  obtain ⟨f, hf, hq⟩ := parseProxy_ok hparse
  obtain ⟨hlength, hbranch⟩ := proxyFields_ok hf
  rcases hbranch with hurl | ⟨hurl, ⟨credentials, hbefore, hendpoint⟩ | ⟨hat, hparts⟩⟩
  · exact absurd hurl (urlFields_colonLine hslash hport f)
  · exact absurd hsame (endpointFields_colonLine hport hmarks hbefore hendpoint hq)
  obtain ⟨hfhost, hfuser⟩ := partsFields_ok hparts
  have hhost : ':' ∉ host := by
    rwa [← hmarks _ hcolon, ← hsame.host, hq.mem_host hcolon]
  have huser : ':' ∉ p.username.toList := by
    rwa [← hsame.username, hq.username_eq]
  rw [proxyFields_colonLine hhost huser hport hurl hat hlength] at hf
  obtain rfl := Except.ok.inj hf
  have hblank : p.password.toList.rdropWhile Text.isSpace = p.password.toList := by
    have := hq.password_eq
    rw [hsame.password] at this
    exact this.symm
  refine ⟨hhost, ?_, hlength⟩
  by_cases hnil : p.username.toList = [] ∧ p.password.toList = []
  · rw [hnil.1, hnil.2]
    exact plainCredentials_nil
  rw [stripChars_colonLine, if_neg hnil, hblank] at hurl hat
  simp only [List.mem_append, List.mem_cons, not_or] at hat
  -- two slashes behind a colon of the line
  have hslashes (as : List Char) {bs : List Char} (cs : List Char)
      (hline : host.dropWhile Text.isSpace ++ ':' :: (portText ++
      ':' :: (p.username.toList ++ ':' :: p.password.toList)) = as ++ ':' :: bs ++ cs) :
      ¬ "//".toList <+: bs := by
    rintro ⟨tail, rfl⟩
    refine hurl ⟨as, tail ++ cs, ?_⟩
    rw [hline]
    simp
  exact {
    username_colon := huser
    username_at := hat.2.2.2.2.1
    password_at := hat.2.2.2.2.2.2
    username_slashes := hslashes (host.dropWhile Text.isSpace ++ ':' :: portText)
      (':' :: p.password.toList) (by simp)
    password_slashes := hslashes (host.dropWhile Text.isSpace ++ ':' :: (portText ++ ':' ::
      p.username.toList)) [] (by simp)
    password_url := fun hinside => hurl (hinside.trans ⟨host.dropWhile Text.isSpace ++ ':' ::
      (portText ++ ':' :: (p.username.toList ++ [':'])), [], by simp⟩)
    password_blank := by
      intro c hc
      have hne : p.password.toList ≠ [] := by rintro heq; simp [heq] at hc
      have hlast := List.rdropWhile_eq_self_iff.mp hblank hne
      rw [List.getLast?_eq_some_getLast hne, Option.mem_some] at hc
      simpa [hc] using hlast }

/-- A colon line that the parser leaves as it is. -/
theorem parse_of_plain (hv : Validated isGlobal "auto".toList host port username password p)
    (hhost : ':' ∉ host) (hport : Text.int? portText = some port)
    (hplain : PlainCredentials username password)
    (hlength : (Text.stripChars (colonLine host portText username password)).length ≤ 4096) :
    parseProxy isGlobal (colonLine host portText username password) = .ok p := by
  have hsub : Text.stripChars (colonLine host portText username password) <:+:
      colonLine host portText username password :=
    ((List.rdropWhile_prefix _ _).isInfix).trans (List.dropWhile_suffix _).isInfix
  have hat : '@' ∉ Text.stripChars (colonLine host portText username password) := by
    have hplainHost : PlainHost isGlobal p.host.toList :=
      plainHost_of_check hv.host_eq (by rwa [hv.mem_host (.inl rfl)])
    have hhostAt : '@' ∉ host := by
      rw [← hv.mem_host (.inr (.inl rfl))]
      intro hmem
      have := hplainHost.chars _ hmem
      revert this
      unfold IsPlainHostChar
      decide
    rw [← List.count_eq_zero, count_at_colonLine _ _ _ hport, List.count_eq_zero.mpr hhostAt,
      List.count_eq_zero.mpr hplain.username_at, List.count_eq_zero.mpr hplain.password_at]
  have hblank : password.rdropWhile Text.isSpace = password :=
    List.rdropWhile_eq_self_iff.mpr fun hne => by
      simp [hplain.password_blank _ (List.getLast?_eq_some_getLast hne)]
  have hstrip : Text.stripChars (host.dropWhile Text.isSpace) = Text.stripChars host := by
    unfold Text.stripChars
    rw [List.dropWhile_idempotent]
  unfold parseProxy
  rw [proxyFields_colonLine hhost hplain.username_colon hport
    (fun h => hplain.no_url hhost hport (h.trans hsub)) hat hlength, hblank]
  exact validate_ok_iff.mpr (hv.congr_host hstrip)

end ColonLine

end EarnProxy
