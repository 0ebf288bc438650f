import EarnProxy.Library.Utf8
import EarnProxy.Url

/-!
# `urllib.parse.quote` and `unquote`

Both work on the bytes of a text in UTF-8. `unquote` decodes each run of ASCII characters on its
own.
-/

namespace EarnProxy.Url

/-- `_ALWAYS_SAFE`. -/
def isSafe (c : Char) : Bool := c.isAlphanum || c == '_' || c == '.' || c == '-' || c == '~'

def upperHex (d : Nat) : Char := Char.ofNat (if d < 10 then '0'.toNat + d else 'A'.toNat + (d - 10))

def quoteByte (b : Nat) : List Char :=
  if b < 128 ∧ isSafe (Char.ofNat b) then [Char.ofNat b]
  else ['%', upperHex (b / 16), upperHex (b % 16)]

/-- `quote(text, safe="")`. -/
def quote (cs : List Char) : List Char := (Utf8.encode cs).flatMap quoteByte

/-- `unquote_to_bytes` of ASCII characters. -/
def unquoteToBytes : List Char → List Nat
  | [] => []
  | '%' :: a :: b :: cs =>
    match IpAddress.hexDigit? a, IpAddress.hexDigit? b with
    | some high, some low => (16 * high + low) :: unquoteToBytes cs
    | _, _ => '%'.toNat :: unquoteToBytes (a :: b :: cs)
  | c :: cs => c.toNat :: unquoteToBytes cs

/-- `_generate_unquoted_parts`, with the current run of ASCII characters in reverse order. -/
def unquoteParts (run : List Char) : List Char → List Char
  | [] => Utf8.decode (unquoteToBytes run.reverse)
  | c :: cs =>
    if c.toNat < 128 then unquoteParts (c :: run) cs
    else Utf8.decode (unquoteToBytes run.reverse) ++ c :: unquoteParts [] cs

/-- `unquote`. A text without `%` is its own result. -/
def unquote (cs : List Char) : List Char := unquoteParts [] cs

example : unquote "p%40s%C3%a9%zz%".toList = "p@sé%zz%".toList := by decide +kernel

theorem hexDigit?_upperHex {d : Nat} (hd : d < 16) : IpAddress.hexDigit? (upperHex d) = some d := by
  have hall : ∀ d : Fin 16, IpAddress.hexDigit? (upperHex d.val) = some d.val := by decide
  exact hall ⟨d, hd⟩

theorem unquoteToBytes_cons {c : Char} (hc : c ≠ '%') (cs : List Char) :
    unquoteToBytes (c :: cs) = c.toNat :: unquoteToBytes cs := by
  rw [unquoteToBytes.eq_3]
  rintro a b rest rfl
  exact absurd rfl hc

theorem unquoteToBytes_quoteByte {b : Nat} (hb : b < 256) (cs : List Char) :
    unquoteToBytes (quoteByte b ++ cs) = b :: unquoteToBytes cs := by
  unfold quoteByte
  split_ifs with hsafe
  · have hpercent : Char.ofNat b ≠ '%' := by
      intro h
      rw [h] at hsafe
      exact absurd hsafe.2 (by decide)
    have hall : ∀ b : Fin 128, (Char.ofNat b.val).toNat = b.val := by decide
    rw [List.singleton_append, unquoteToBytes_cons hpercent, hall ⟨b, hsafe.1⟩]
  · have hhigh := hexDigit?_upperHex (show b / 16 < 16 by omega)
    have hlow := hexDigit?_upperHex (show b % 16 < 16 by omega)
    simp only [List.cons_append, List.nil_append, unquoteToBytes, hhigh, hlow]
    congr 1
    omega

theorem unquoteToBytes_quoteBytes {bs : List Nat} (hbs : ∀ b ∈ bs, b < 256) :
    unquoteToBytes (bs.flatMap quoteByte) = bs := by
  induction bs with
  | nil => rfl
  | cons b bs ih =>
    obtain ⟨hb, hbs⟩ := List.forall_mem_cons.mp hbs
    rw [List.flatMap_cons, unquoteToBytes_quoteByte hb, ih hbs]

theorem unquoteParts_ascii {cs : List Char} (hcs : ∀ c ∈ cs, c.toNat < 128) (run : List Char) :
    unquoteParts run cs = Utf8.decode (unquoteToBytes (run.reverse ++ cs)) := by
  induction cs generalizing run with
  | nil => rw [unquoteParts, List.append_nil]
  | cons c cs ih =>
    obtain ⟨hc, hcs⟩ := List.forall_mem_cons.mp hcs
    rw [unquoteParts, if_pos hc, ih hcs, List.reverse_cons, List.append_assoc,
      List.singleton_append]

/-- The characters of a quoted text. -/
theorem quote_chars {cs : List Char} {c : Char} (hc : c ∈ quote cs) : isSafe c ∨ c = '%' := by
  obtain ⟨b, hb, hc⟩ := List.mem_flatMap.mp hc
  have hlt := Utf8.encode_lt hb
  have hhex : ∀ d : Fin 16, isSafe (upperHex d.val) := by decide
  unfold quoteByte at hc
  split_ifs at hc with hsafe
  · rw [List.mem_singleton.mp hc]
    exact .inl hsafe.2
  · simp only [List.mem_cons, List.not_mem_nil, or_false] at hc
    rcases hc with rfl | rfl | rfl
    · exact .inr rfl
    · exact .inl (hhex ⟨b / 16, by omega⟩)
    · exact .inl (hhex ⟨b % 16, by omega⟩)

theorem isSafe_ascii {c : Char} (h : isSafe c ∨ c = '%') : c.toNat < 128 := by
  rcases h with h | rfl
  · simp only [isSafe, Char.isAlphanum, Bool.or_eq_true, Text.isAlpha_iff, Text.isUpper_iff,
      Text.isLower_iff, Text.isDigit_iff, beq_iff_eq] at h
    rcases h with (((((h | h) | h) | rfl) | rfl) | rfl) | rfl <;> first | omega | decide
  · decide

/-- What was quoted is read back. -/
theorem unquote_quote (cs : List Char) : unquote (quote cs) = cs := by
  unfold unquote
  rw [unquoteParts_ascii fun c hc => isSafe_ascii (quote_chars hc), List.reverse_nil,
    List.nil_append]
  unfold quote
  rw [unquoteToBytes_quoteBytes fun b hb => Utf8.encode_lt hb, Utf8.decode_encode]

end EarnProxy.Url
