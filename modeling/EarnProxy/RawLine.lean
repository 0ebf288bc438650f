import EarnProxy.ProxyLine

/-!
# `ParsedProxy.raw`

The raw line of a proxy is what the feed hands out. It is read back as the same proxy exactly when
the host is no IPv6 address and the credentials are plain: nothing in the line is quoted.
-/

namespace EarnProxy

variable {isGlobal : IpAddress → Bool} {x : List Char} {p : ParsedProxy}

theorem raw_eq_colonLine (p : ParsedProxy) : p.raw =
    colonLine p.host.toList (toString p.port).toList p.username.toList p.password.toList := by
  unfold ParsedProxy.raw colonLine
  dsimp only
  by_cases hnil : p.username = "" ∧ p.password = ""
  · rw [if_neg (by simp [hnil]), hnil.1, hnil.2]
    simp
  · have hlists : ¬ (p.username.toList = [] ∧ p.password.toList = []) := by simpa using hnil
    rw [if_pos (not_and_or.mp hnil), if_neg hlists]
    simp

/-- A raw line fits into the limit of the parser. -/
theorem length_colonLine_le {host portText username password : List Char}
    (hhost : host.length ≤ 253)
    (hport : portText.length ≤ 5) (huser : username.length ≤ 512) (hpass : password.length ≤ 2048) :
    (Text.stripChars (colonLine host portText username password)).length ≤ 4096 := by
  have hstrip : (Text.stripChars (colonLine host portText username password)).length ≤
      (colonLine host portText username password).length :=
    ((List.rdropWhile_prefix _ _).sublist.length_le).trans (List.dropWhile_sublist _).length_le
  refine hstrip.trans ?_
  unfold colonLine
  split_ifs <;> simp <;> omega

/-- What `_validate` accepted from any grammar is read back from its raw line as the same proxy
exactly when its host is no IPv6 address and its credentials are plain. -/
theorem raw_reparses_of_validated {protocol host username password : List Char} {port : Int}
    (hv : Validated isGlobal protocol host port username password p) :
    (∃ q, parseProxy isGlobal p.raw = .ok q ∧ SameCredential p q) ↔
      ':' ∉ host ∧ PlainCredentials username password := by
  have hcolon : IsMark ':' := .inl rfl
  have hportLe : p.port ≤ 65535 := by
    have := hv.port_le
    rw [← hv.port_eq] at this
    omega
  have hportText : Text.int? (toString p.port).toList = some (p.port : Int) :=
    Text.int?_toString hportLe
  rw [raw_eq_colonLine]
  constructor
  · rintro ⟨q, hq, hsame⟩
    have hslash : '/' ∉ p.host.toList := by
      rw [hv.mem_host (.inr (.inr rfl))]
      exact hv.slash_notMem
    obtain ⟨hhost, hplain, -⟩ := plain_of_parse hslash (fun _ _ => Iff.rfl) hportText hq hsame
    rw [hv.mem_host hcolon] at hhost
    rw [hv.username_eq, hv.password_eq] at hplain
    exact ⟨hhost, hplain⟩
  · rintro ⟨hhost, hplain⟩
    have hagain := (hv.again hhost).withProtocol "auto".toList "auto" (by decide)
    have hhost' : ':' ∉ p.host.toList := by rwa [hv.mem_host hcolon]
    have hstripped : strippedHost p.host.toList = p.host.toList :=
      (plainHost_of_check hv.host_eq hhost').stripped
    have hportLength : (toString p.port).toList.length ≤ 5 := by
      rw [Nat.toString_eq_ofList_toDigits, String.toList_ofList]
      exact (Nat.length_toDigits_le_iff (by decide) (by decide)).mpr (by omega)
    have hlength := length_colonLine_le (hstripped ▸ hagain.host_length) hportLength
      hv.username_length hv.password_length
    rw [hv.username_eq, hv.password_eq]
    exact ⟨_, parse_of_plain hagain hhost' hportText hplain hlength, ⟨rfl, rfl, rfl, rfl⟩⟩

/-- The raw line of an accepted proxy names the same upstream and credentials exactly when the
fields of the accepted line are plain. -/
theorem raw_reparses_iff (h : parseProxy isGlobal x = .ok p) :
    (∃ q, parseProxy isGlobal p.raw = .ok q ∧ SameCredential p q ∧
      credentialFingerprint q = credentialFingerprint p) ↔
    ∃ f, proxyFields x = .ok f ∧ ':' ∉ f.host ∧ PlainCredentials f.username f.password := by
  obtain ⟨f, hf, hv⟩ := parseProxy_ok h
  constructor
  · rintro ⟨q, hq, hsame, -⟩
    exact ⟨f, hf, (raw_reparses_of_validated hv).mp ⟨q, hq, hsame⟩⟩
  · rintro ⟨g, hg, hplain⟩
    obtain rfl := Except.ok.inj (hf.symm.trans hg)
    obtain ⟨q, hq, hsame⟩ := (raw_reparses_of_validated hv).mpr hplain
    exact ⟨q, hq, hsame, hsame.fingerprint⟩

theorem raw_reparses_colonInPassword :
    ∃ q, parseProxy (fun _ => true)
        (ParsedProxy.raw ⟨"auto", "proxy.example", 8080, "user", "pa:ss"⟩) = .ok q ∧
      SameCredential ⟨"auto", "proxy.example", 8080, "user", "pa:ss"⟩ q ∧
      credentialFingerprint q =
        credentialFingerprint ⟨"auto", "proxy.example", 8080, "user", "pa:ss"⟩ :=
  (raw_reparses_iff (x := "user:pa:ss@Proxy.Example:8080".toList) (by decide +kernel)).mpr
    ⟨⟨"auto".toList, "Proxy.Example".toList, 8080, "user".toList, "pa:ss".toList⟩,
      by decide +kernel, by decide, by decide, by decide, by decide, by decide, by decide,
      by decide,
      fun c hc => by
        obtain rfl : 's' = c := Option.some.inj hc
        decide⟩

/-- A password with an `@` in it was accepted, but the raw line is refused. -/
theorem raw_refused_atInPassword : ¬ ∀ x p, parseProxy (fun _ => true) x = .ok p →
    ∃ q, parseProxy (fun _ => true) p.raw = .ok q ∧ SameCredential p q := by
  intro hall
  obtain ⟨q, hq, -⟩ := hall "user:p@ss@proxy.example:8080".toList
    ⟨"auto", "proxy.example", 8080, "user", "p@ss"⟩ (by decide +kernel)
  have hraw : parseProxy (fun _ => true)
      (ParsedProxy.raw ⟨"auto", "proxy.example", 8080, "user", "p@ss"⟩) =
      .error "Proxy must use user:password@host:port" := by decide +kernel
  rw [hraw] at hq
  cases hq

end EarnProxy
