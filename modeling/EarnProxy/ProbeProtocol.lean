import EarnProxy.Library.Fencing
import EarnProxy.ProbeClaims

/-!
# A probe result is fenced by its claim

A row holds at most one token of each protocol, every token is written once, and whatever takes a
token away takes it away for good: the report on the claim, a later claim, a release, a replaced
credential, the archive, and for the EarnApp token each health result that casts doubt on the
egress of the row. Two things escape the fence: a change of egress that is still to be confirmed
leaves the EarnApp token, and the closing statement of an EarnApp report asks for no token.
-/

namespace EarnProxy

open Transaction

/-! ## Tokens -/

/-- The rows in service as a table of claimed rows. -/
def ProbeState.board (s : ProbeState) (probe : Probe) : Fencing.Board Nat String Unit where
  issued := {t | t ∈ s.issued}
  holder i := ((s.db.proxy? i).filter fun r => r.archivedAt = none).bind fun r => r.claimToken probe
  content _ := ()

/-- The claim still has its row. -/
def ProbeClaim.Holds (c : ProbeClaim) (db : Db) : Prop :=
  ∃ r ∈ db.proxies, r.id = c.proxyId ∧ r.archivedAt = none ∧ r.claimToken c.probe = some c.token

theorem ProbeState.holder_eq {s : ProbeState} (hk : Table.Keyed Proxy.id s.db.proxies) {i : Nat}
    {probe : Probe} {t : String} : (s.board probe).holder i = some t ↔
      ∃ r ∈ s.db.proxies, r.id = i ∧ r.archivedAt = none ∧ r.claimToken probe = some t := by
  constructor
  · intro h
    obtain ⟨r, hr, htoken⟩ := Option.bind_eq_some_iff.mp h
    obtain ⟨hfound, hkept⟩ := Option.filter_eq_some_iff.mp hr
    exact ⟨r, Table.mem_of_lookup hfound, Table.key_of_lookup hfound, of_decide_eq_true hkept,
      htoken⟩
  · rintro ⟨r, hr, rfl, hkept, htoken⟩
    have hfound : s.db.proxy? r.id = some r := hk.lookup_eq hr
    refine Option.bind_eq_some_iff.mpr ⟨r, ?_, htoken⟩
    exact Option.filter_eq_some_iff.mpr ⟨hfound, decide_eq_true hkept⟩

structure ProbeState.Sound (s : ProbeState) : Prop where
  wellFormed : s.db.WellFormed
  reserved : "" ∈ s.issued
  held : ∀ r ∈ s.db.proxies, ∀ probe, ∀ t ∈ r.claimToken probe, t ∈ s.issued
  batches : ∀ b ∈ s.batches, b.token ∈ s.issued ∧ b.token ≠ ""
  claims : ∀ c ∈ s.claims, c.token ∈ s.issued ∧ c.token ≠ ""
  closings : ∀ x ∈ s.closings, x.claim ∈ s.claims ∧ x.claim.probe = .earnapp

/-- What an action does to a claim column of the row `r'`. -/
inductive ClaimMove (s s' : ProbeState) (r' : Proxy) (probe : Probe) : Prop where
  | cleared (token : r'.claimToken probe = none)
  | fresh {t : String} (token : r'.claimToken probe = some t) (unused : t ∉ s.issued)
      (issued : t ∈ s'.issued)
  | kept {r : Proxy} (mem : r ∈ s.db.proxies) (id : r'.id = r.id)
      (archived : r.archivedAt ≠ none → r'.archivedAt ≠ none)
      (token : r'.claimToken probe = r.claimToken probe)

/-- The state after an action is sound, and no token came back. -/
structure ProbeState.Advances (s s' : ProbeState) : Prop where
  sound : s'.Sound
  board : ∀ probe, (s.board probe).Step (s'.board probe)

theorem ProbeState.Sound.step {s s' : ProbeState} (hs : s.Sound) (hwf : s'.db.WellFormed)
    (hissued : ∀ t ∈ s.issued, t ∈ s'.issued)
    (hbatches : ∀ b ∈ s'.batches, b ∈ s.batches ∨ b.token ∉ s.issued ∧ b.token ∈ s'.issued)
    (hclaims : ∀ c ∈ s'.claims, c ∈ s.claims ∨ ∃ b ∈ s.batches, c.token = b.token)
    (hkept : ∀ c ∈ s.claims, c ∈ s'.claims)
    (hclosings : ∀ x ∈ s'.closings, x ∈ s.closings ∨ x.claim ∈ s.claims ∧ x.claim.probe = .earnapp)
    (hmoves : ∀ r' ∈ s'.db.proxies, ∀ probe, ClaimMove s s' r' probe) : s.Advances s' := by
  refine ⟨⟨hwf, hissued _ hs.reserved, fun r' hr' probe t ht => ?_, fun b hb => ?_, fun c hc => ?_,
    fun x hx => ?_⟩, fun probe => ⟨hissued, fun i t ht => ?_⟩⟩
  · cases hmoves r' hr' probe with
    | cleared hnone => simp [hnone] at ht
    | fresh hsome _ hnew => exact Option.some.inj (hsome.symm.trans ht) ▸ hnew
    | kept hr _ _ hsame => exact hissued t (hs.held _ hr probe t (hsame ▸ ht))
  · rcases hbatches b hb with hold | ⟨hunused, hnew⟩
    · exact ⟨hissued _ (hs.batches b hold).1, (hs.batches b hold).2⟩
    · exact ⟨hnew, fun hempty => hunused (hempty ▸ hs.reserved)⟩
  · rcases hclaims c hc with hold | ⟨b, hb, hsame⟩
    · exact ⟨hissued _ (hs.claims c hold).1, (hs.claims c hold).2⟩
    · rw [hsame]
      exact ⟨hissued _ (hs.batches b hb).1, (hs.batches b hb).2⟩
  · have hclaim := (hclosings x hx).elim (hs.closings x) id
    exact ⟨hkept _ hclaim.1, hclaim.2⟩
  · obtain ⟨r', hr', rfl, hkept, htoken⟩ := (ProbeState.holder_eq hwf.keyed).mp ht
    cases hmoves r' hr' probe with
    | cleared hnone => simp [hnone] at htoken
    | fresh hsome hunused hnew =>
      obtain rfl := Option.some.inj (hsome.symm.trans htoken)
      exact ⟨hnew, fun hold => absurd hold hunused⟩
    | @kept r hr hid harchived hsame =>
      rw [hsame] at htoken
      refine ⟨hissued t (hs.held r hr probe t htoken), fun _ => ⟨?_, rfl⟩⟩
      refine (ProbeState.holder_eq hs.wellFormed.keyed).mpr ⟨r, hr, hid.symm, ?_, htoken⟩
      by_contra hgone
      exact harchived hgone hkept

theorem ProbeState.Sound.refl {s : ProbeState} (hs : s.Sound) : s.Advances s :=
  hs.step hs.wellFormed (fun _ h => h) (fun _ hb => .inl hb) (fun _ hc => .inl hc) (fun _ hc => hc)
    (fun _ hx => .inl hx) fun _ hr _ => .kept hr rfl (fun h => h) rfl

theorem ProbeState.Advances.trans {s s' s'' : ProbeState} (h : s.Advances s')
    (h' : s'.Advances s'') : s.Advances s'' :=
  ⟨h'.sound, fun probe => (h.board probe).trans (h'.board probe)⟩

/-- A claim that has lost its row does not get it back. -/
theorem ProbeState.Advances.lost {s s' : ProbeState} (h : s.Advances s') (hs : s.Sound)
    {c : ProbeClaim} (hissued : c.token ∈ s.issued) (hlost : ¬ c.Holds s.db) : ¬ c.Holds s'.db := by
  rw [ProbeClaim.Holds, ← ProbeState.holder_eq h.sound.wellFormed.keyed]
  rw [ProbeClaim.Holds, ← ProbeState.holder_eq hs.wellFormed.keyed] at hlost
  exact (h.board c.probe).lost hissued hlost

/-! ## Claims and releases -/

/-- The row apart from the columns that schedule and claim its probes. -/
def Proxy.SameButClaims (r r' : Proxy) : Prop :=
  r' = { r with
    nextCheckAt := r'.nextCheckAt, checkClaimedUntil := r'.checkClaimedUntil
    checkClaimToken := r'.checkClaimToken, earnappNextCheckAt := r'.earnappNextCheckAt
    earnappClaimedUntil := r'.earnappClaimedUntil, earnappClaimToken := r'.earnappClaimToken }

/-- A statement that leaves owners alone and keeps what is asked of a row. -/
theorem Db.WellFormed.rewrite {db : Db} (h : db.WellFormed) {p : Proxy → Prop} [DecidablePred p]
    {f : Proxy → Proxy} (hid : ∀ r : Proxy, (f r).id = r.id)
    (howner : ∀ r : Proxy, (f r).userId = r.userId) (hsound : ∀ r : Proxy, r.Sound → (f r).Sound)
    (hclocked : ∀ r : Proxy, r.Clocked → (f r).Clocked) : (db.updateProxies p f).WellFormed := by
  refine ⟨?_, ?_, ?_, ?_⟩
  · exact h.keyed.map fun r _ => by split <;> simp only [hid]
  · intro r' hr'
    obtain ⟨r, hr, rfl⟩ := List.mem_map.mp hr'
    split
    · exact hsound r (h.sound r hr)
    · exact h.sound r hr
  · intro r' hr'
    obtain ⟨r, hr, rfl⟩ := List.mem_map.mp hr'
    split
    · exact hclocked r (h.clocked r hr)
    · exact h.clocked r hr
  · intro e he
    obtain ⟨r, hr, hrid, hruser⟩ := h.owned e he
    refine ⟨_, List.mem_map_of_mem hr, ?_⟩
    split
    · exact ⟨(hid r).trans hrid, (howner r).trans hruser⟩
    · exact ⟨hrid, hruser⟩

theorem Db.WellFormed.reschedule {db : Db} (h : db.WellFormed) {p : Proxy → Prop} [DecidablePred p]
    {f : Proxy → Proxy} (hf : ∀ r : Proxy, r.SameButClaims (f r)) :
    (db.updateProxies p f).WellFormed := by
  refine h.rewrite (fun r => ?_) (fun r => ?_) (fun r hsound => ?_) fun r hclocked => ?_
  · rw [hf r]
  · rw [hf r]
  · rw [hf r]
    exact ⟨hsound.offline, hsound.pending, hsound.archived⟩
  · rw [hf r]
    exact hclocked

/-- The closing statement of a report, on any row. -/
theorem Db.WellFormed.close {db : Db} (h : db.WellFormed) (result : EarnappResult) (i : Nat)
    (previous : Proxy) (refreshHours : Int) (now : Timestamp) :
    (result.close db i previous refreshHours now).WellFormed := by
  refine h.rewrite (fun _ => rfl) (fun _ => rfl)
    (fun r hsound => ⟨hsound.offline, hsound.pending, hsound.archived⟩) fun r hclocked => ?_
  cases hresets : result.resets previous with
  | true => exact ⟨now, now, by simp [Proxy.qualified, hresets], by simp [Proxy.qualified, hresets],
      le_rfl⟩
  | false =>
    obtain ⟨probation, cursor, hprobation, hcursor, hle⟩ := hclocked
    exact ⟨probation, cursor, by simp [Proxy.qualified, hresets, hprobation],
      by simp [Proxy.qualified, hresets, hcursor], hle⟩

theorem Proxy.claimed_same (r : Proxy) (settings : CheckerSettings) (current : Timestamp)
    (token : String) (probe : Probe) :
    r.SameButClaims (r.claimed settings current token probe) := by
  cases probe <;> rfl

theorem Proxy.released_same (r : Proxy) (current : Timestamp) (probe : Probe) :
    r.SameButClaims (r.released current probe) := by
  cases probe <;> rfl

theorem Proxy.claimed_token (r : Proxy) (settings : CheckerSettings) (current : Timestamp)
    (token : String) (probe other : Probe) :
    (r.claimed settings current token probe).claimToken other =
      if other = probe then some token else r.claimToken other := by
  cases probe <;> cases other <;> rfl

theorem Proxy.released_token (r : Proxy) (current : Timestamp) (probe other : Probe) :
    (r.released current probe).claimToken other =
      if other = probe then none else r.claimToken other := by
  cases probe <;> cases other <;> rfl

theorem claimRows_some {probe : Probe} {db db' : Db} {rows : List Proxy} {current : Timestamp}
    {token : String} {ids : List Nat}
    (h : claimRows probe db rows current token = some (db', ids)) :
    db' = db.updateProxies (fun r => r.id ∈ ids)
      fun r => r.claimed (checkerSettings db) current token probe := by
  simp only [claimRows] at h
  split at h
  · cases h
  · obtain ⟨rfl, rfl⟩ := Prod.mk.inj (Option.some.inj h)
    rfl

section Moves

variable {s : ProbeState} {probe : Probe} {rows : List Proxy} {current : Timestamp} {token : String}

theorem ProbeState.Sound.claimed (hs : s.Sound) (htoken : token ∉ s.issued) :
    s.Advances (s.claimed probe token (claimRows probe s.db rows current token)) := by
  cases hclaim : claimRows probe s.db rows current token with
  | none => exact hs.refl
  | some x =>
    obtain ⟨db', ids⟩ := x
    obtain rfl := claimRows_some hclaim
    refine hs.step (hs.wellFormed.reschedule fun r => r.claimed_same ..)
      (fun t ht => List.mem_cons_of_mem _ ht) ?_ (fun c hc => .inl hc) (fun c hc => hc)
      (fun x hx => .inl hx) ?_
    · intro b hb
      rcases List.mem_cons.mp hb with rfl | hb
      · exact .inr ⟨htoken, List.mem_cons_self⟩
      · exact .inl hb
    · intro r' hr' other
      obtain ⟨r, hr, rfl⟩ := Table.mem_update.mp hr'
      have hsame := r.claimed_same (checkerSettings s.db) current token probe
      split
      · by_cases hother : other = probe
        · refine .fresh (t := token) ?_ htoken List.mem_cons_self
          rw [Proxy.claimed_token, if_pos hother]
        · refine .kept hr (by rw [hsame]) (fun h => by rwa [hsame]) ?_
          rw [Proxy.claimed_token, if_neg hother]
      · exact .kept hr rfl (fun h => h) rfl

/-- Gives back one row. -/
theorem ProbeState.Sound.releaseOne (hs : s.Sound) (probe : Probe) (current : Timestamp)
    (claim : Nat × String) :
    s.Advances { s with
      db := s.db.updateProxies (fun r => r.id = claim.1 ∧ r.claimToken probe = some claim.2)
        fun r => r.released current probe } := by
  refine hs.step (hs.wellFormed.reschedule fun r => r.released_same ..) (fun _ h => h)
    (fun _ hb => .inl hb) (fun _ hc => .inl hc) (fun _ hc => hc) (fun _ hx => .inl hx)
    fun r' hr' other => ?_
  obtain ⟨r, hr, rfl⟩ := Table.mem_update.mp hr'
  have hsame := r.released_same current probe
  split
  · by_cases hother : other = probe
    · refine .cleared ?_
      rw [Proxy.released_token, if_pos hother]
    · refine .kept hr (by rw [hsame]) (fun h => by rwa [hsame]) ?_
      rw [Proxy.released_token, if_neg hother]
  · exact .kept hr rfl (fun h => h) rfl

theorem ProbeState.Sound.released (hs : s.Sound) (claims : List (Nat × String)) :
    s.Advances { s with db := releaseClaims probe s.db claims current } := by
  induction claims generalizing s with
  | nil => exact hs.refl
  | cons claim claims ih =>
    have hone := hs.releaseOne probe current claim
    exact hone.trans (ih hone.sound)

/-- A released claim has lost its row. -/
theorem ProbeState.Sound.released_lost (hs : s.Sound) (current : Timestamp) {c : ProbeClaim}
    {claims : List (Nat × String)}
    (hissued : c.token ∈ s.issued) (hmem : (c.proxyId, c.token) ∈ claims) :
    ¬ c.Holds (releaseClaims c.probe s.db claims current) := by
  induction claims generalizing s with
  | nil => cases hmem
  | cons claim claims ih =>
    have hone := hs.releaseOne c.probe current claim
    rcases List.mem_cons.mp hmem with rfl | hmem
    · refine (hone.sound.released claims).lost hone.sound hissued ?_
      rintro ⟨r', hr', hid, _, htoken⟩
      obtain ⟨r, hr, rfl⟩ := Table.mem_update.mp hr'
      split at htoken
      · rw [Proxy.released_token, if_pos rfl] at htoken
        cases htoken
      · rename_i hother
        simp only [hother, if_false] at hid
        exact hother ⟨hid, htoken⟩
    · exact ih hone.sound hissued hmem

end Moves

/-! ## The actions -/

/-- What an event does to the rows, with the closing statements that it leaves to come. -/
theorem ProbeState.Sound.effect {s : ProbeState} (hs : s.Sound) {ev : Event} {db : Db}
    (heffect : Effect s.db ev db) {closings : List ProbeClosing}
    (hclosings : ∀ x ∈ closings, x ∈ s.closings ∨ x.claim ∈ s.claims ∧ x.claim.probe = .earnapp) :
    s.Advances { s with db, closings } := by
  refine hs.step (heffect.wellFormed hs.wellFormed) (fun _ h => h) (fun _ hb => .inl hb)
    (fun _ hc => .inl hc) (fun _ hc => hc) hclosings fun r' hr' probe => ?_
  rcases heffect.row hr' with ⟨r, hr, hid, harchived, hprobed⟩ | ⟨userId, parsed, rfl⟩
  · cases probe with
    | health =>
      rcases hprobed.checkClaim with hsame | hnone
      · exact .kept hr hid harchived hsame
      · exact .cleared hnone
    | earnapp =>
      rcases hprobed.earnappClaim with hsame | hnone
      · exact .kept hr hid harchived hsame
      · exact .cleared hnone
  · cases probe with
    | health => exact .cleared rfl
    | earnapp => exact .cleared rfl

theorem ProbeState.Sound.service {s : ProbeState} (hs : s.Sound) (ev : Event) :
    s.Advances { s with db := exec s.db ev } :=
  hs.effect (exec_effect hs.wellFormed.keyed ev) fun _ hx => .inl hx

/-- The first part of an EarnApp report changes no more than the whole may. -/
theorem settle_effect {db db' : Db} (hk : Table.Keyed Proxy.id db.proxies) {i : Nat}
    {result : EarnappResult} {previous : Proxy} {now wall : Timestamp}
    (hrow : result.row? db i = some previous)
    (h : result.settle db i previous now wall = .ok db') :
    Effect db ⟨.applyEarnappResult i result, now, wall⟩ db' := by
  obtain ⟨hmem, rfl, -⟩ := EarnappResult.row?_mem hrow
  set lic := Event.licence db ⟨.applyEarnappResult previous.id result, now, wall⟩ with hlic
  have hdoes : Does (Phased lic (· = previous.id)) Db.Raises db
      (result.settle db previous.id previous lic.now wall) id :=
    settle_does hk rfl hmem fun hback => ⟨previous, hrow, hback⟩
  exact .proxies ((hdoes.of_ok h).mono fun _ _ => trivial)

/-- If nothing comes between its two parts, a report is the call of the service. -/
theorem settle_close {db db' : Db} {claim : ProbeClaim} {result : EarnappResult} {previous : Proxy}
    {now wall : Timestamp} (hrow : result.row? db claim.proxyId = some previous)
    (h : result.settle db claim.proxyId previous now wall = .ok db') :
    ProbeClosing.run ⟨claim, result, previous, (checkerSettings db).earnappRefreshHours, now⟩ db' =
      exec db ⟨.applyEarnappResult claim.proxyId result, now, wall⟩ := by
  refine (exec_of_ok ?_).symm
  simp only [step, applyEarnappResult, hrow, h]
  rfl

/-- What a report leaves. -/
inductive Reported (s : ProbeState) (claim : ProbeClaim) (result : EarnappResult)
    (now wall : Timestamp) : ProbeState → Prop
  | whole (whole : result.authenticatedExitIp = none ∨ result.row? s.db claim.proxyId = none) :
      Reported s claim result now wall
        { s with db := exec s.db ⟨.applyEarnappResult claim.proxyId result, now, wall⟩ }
  | opened {previous : Proxy} {db : Db} (row : result.row? s.db claim.proxyId = some previous)
      (settled : result.settle s.db claim.proxyId previous now wall = .ok db) :
      Reported s claim result now wall
        { s with
          db := db
          closings :=
            ⟨claim, result, previous, (checkerSettings s.db).earnappRefreshHours, now⟩ ::
              s.closings }
  | raised : Reported s claim result now wall s

theorem reported_cases (s : ProbeState) (claim : ProbeClaim) (result : EarnappResult)
    (now wall : Timestamp) :
    Reported s claim result now wall (s.reported claim result now wall) := by
  unfold ProbeState.reported
  cases hexit : result.authenticatedExitIp with
  | none => exact .whole (.inl hexit)
  | some exitIp =>
    cases hrow : result.row? s.db claim.proxyId with
    | none => exact .whole (.inr hrow)
    | some previous =>
      dsimp only
      cases hsettle : result.settle s.db claim.proxyId previous now wall with
      | error e => exact .raised
      | ok db => exact .opened hrow hsettle

theorem ProbeState.next_applyHealth {s s' : ProbeState} {c : ProbeClaim} {result : HealthResult}
    {now wall : Timestamp} (h : s.next (.applyHealth c result now wall) = some s') :
    (c ∈ s.claims ∧ c.probe = .health) ∧ s' = { s with
      db := exec s.db ⟨.applyHealthResult c.proxyId (c.health result), now, wall⟩ } := by
  simp only [ProbeState.next] at h
  split at h
  · exact ⟨‹_›, (Option.some.inj h).symm⟩
  · cases h

theorem ProbeState.next_applyEarnapp {s s' : ProbeState} {c : ProbeClaim} {result : EarnappResult}
    {now wall : Timestamp} (h : s.next (.applyEarnapp c result now wall) = some s') :
    (c ∈ s.claims ∧ c.probe = .earnapp) ∧ s' = s.reported c (c.earnapp result) now wall := by
  simp only [ProbeState.next] at h
  split at h
  · exact ⟨‹_›, (Option.some.inj h).symm⟩
  · cases h

theorem ProbeState.next_closeEarnapp {s s' : ProbeState} {x : ProbeClosing}
    (h : s.next (.closeEarnapp x) = some s') :
    x ∈ s.closings ∧ s' = { s with db := x.run s.db, closings := s.closings.erase x } := by
  simp only [ProbeState.next] at h
  split at h
  · exact ⟨‹_›, (Option.some.inj h).symm⟩
  · cases h

theorem ProbeState.Sound.reported {s : ProbeState} (hs : s.Sound) {c : ProbeClaim}
    (hc : c ∈ s.claims ∧ c.probe = .earnapp) (result : EarnappResult) (now wall : Timestamp) :
    s.Advances (s.reported c result now wall) := by
  have hreported := reported_cases s c result now wall
  generalize s.reported c result now wall = s' at hreported ⊢
  cases hreported with
  | whole => exact hs.service _
  | opened hrow hsettle =>
    refine hs.effect (settle_effect hs.wellFormed.keyed hrow hsettle) fun x hx => ?_
    rcases List.mem_cons.mp hx with rfl | hx
    · exact .inr hc
    · exact .inl hx
  | raised => exact hs.refl

theorem ProbeState.Sound.closed {s : ProbeState} (hs : s.Sound) (x : ProbeClosing) :
    s.Advances { s with db := x.run s.db, closings := s.closings.erase x } := by
  refine hs.step (hs.wellFormed.close ..) (fun _ h => h) (fun _ hb => .inl hb)
    (fun _ hc => .inl hc) (fun _ hc => hc) (fun _ hx => .inl (List.mem_of_mem_erase hx))
    fun r' hr' probe => ?_
  obtain ⟨r, hr, rfl⟩ := Table.mem_update.mp hr'
  split
  · cases probe with
    | health => exact .kept hr rfl (fun h => h) rfl
    | earnapp => exact .cleared rfl
  · exact .kept hr rfl (fun h => h) rfl

theorem ProbeState.Sound.next {s s' : ProbeState} (hs : s.Sound) {a : ProbeAction}
    (h : s.next a = some s') : s.Advances s' := by
  cases a with
  | service ev =>
    simp only [ProbeState.next] at h
    split at h
    · cases h
    · exact Option.some.inj h ▸ hs.service ev
  | claimDueProxies current limit perHostLimit token =>
    simp only [ProbeState.next] at h
    split at h
    · cases h
    · exact Option.some.inj h ▸ hs.claimed ‹_›
  | claimDueEarnapp current limit token =>
    simp only [ProbeState.next] at h
    split at h
    · cases h
    · exact Option.some.inj h ▸ hs.claimed ‹_›
  | readBack batch =>
    simp only [ProbeState.next] at h
    split at h
    · rename_i hbatch
      obtain rfl := Option.some.inj h
      refine hs.step hs.wellFormed (fun _ h => h) (fun _ hb => .inl hb) (fun c hc => ?_)
        (fun c hc => List.mem_append_right _ hc) (fun _ hx => .inl hx)
        fun r hr _ => .kept hr rfl (fun h => h) rfl
      rcases List.mem_append.mp hc with hnew | hold
      · obtain ⟨r, _, rfl⟩ := List.mem_map.mp hnew
        exact .inr ⟨batch, hbatch, rfl⟩
      · exact .inl hold
    · cases h
  | releaseHealthClaims claims current => exact Option.some.inj h ▸ hs.released claims
  | releaseEarnappClaims claims current => exact Option.some.inj h ▸ hs.released claims
  | applyHealth c result now wall =>
    obtain ⟨_, rfl⟩ := ProbeState.next_applyHealth h
    exact hs.service _
  | applyEarnapp c result now wall =>
    obtain ⟨hc, rfl⟩ := ProbeState.next_applyEarnapp h
    exact hs.reported hc _ now wall
  | closeEarnapp x =>
    obtain ⟨-, rfl⟩ := ProbeState.next_closeEarnapp h
    exact hs.closed x

theorem ProbeState.start_sound {db : Db} (hfresh : db.Fresh) : ProbeState.Sound { db := db } where
  wellFormed := hfresh.wellFormed
  reserved := List.mem_singleton.mpr rfl
  held := by simp [hfresh.proxies]
  batches := by simp
  claims := by simp
  closings := by simp

/-! ## The end of a claim -/

/-- The action writes the report on the claim into a row that accepts it, or that has accepted it
before. -/
def ProbeAction.Applies (c : ProbeClaim) (s : ProbeState) : ProbeAction → Prop
  | .applyHealth claim result now wall =>
    claim = c ∧ ((c.health result).row? s.db c.proxyId).isSome ∧
      (step s.db ⟨.applyHealthResult c.proxyId (c.health result), now, wall⟩).isOk
  | .applyEarnapp claim result now wall =>
    claim = c ∧ ∃ previous ∈ (c.earnapp result).row? s.db c.proxyId,
      ((c.earnapp result).settle s.db c.proxyId previous now wall).isOk
  | .closeEarnapp closing => closing.claim = c
  | _ => False

instance (c : ProbeClaim) (s : ProbeState) (a : ProbeAction) : Decidable (a.Applies c s) := by
  rcases a with ⟨⟩ <;> unfold ProbeAction.Applies <;> infer_instance

/-- The action leaves the closing statement of its report to come. -/
def ProbeAction.opens : ProbeAction → Bool
  | .applyEarnapp claim result _ _ => (claim.earnapp result).authenticatedExitIp.isSome
  | _ => false

/-- The ids of the rows that the action claims for the protocol. -/
def ProbeAction.claimedIds (probe : Probe) (s : ProbeState) : ProbeAction → List Nat
  | .claimDueProxies current limit perHostLimit token =>
    if probe = .health then
      ((EarnProxy.claimDueProxies s.db current limit perHostLimit token).map Prod.snd).getD []
    else []
  | .claimDueEarnapp current limit token =>
    if probe = .earnapp then
      ((EarnProxy.claimDueEarnapp s.db current limit token).map Prod.snd).getD []
    else []
  | _ => []

/-- The rows and tokens that the action releases for the protocol. -/
def ProbeAction.releasedClaims (probe : Probe) : ProbeAction → List (Nat × String)
  | .releaseHealthClaims claims _ => if probe = .health then claims else []
  | .releaseEarnappClaims claims _ => if probe = .earnapp then claims else []
  | _ => []

/-- Every way for a claim to come to its end. -/
inductive ProbeAction.Ends (c : ProbeClaim) (s : ProbeState) (a : ProbeAction) : Prop where
  | applied (applies : a.Applies c s) (closed : a.opens = false)
  | reclaimed (mem : c.proxyId ∈ a.claimedIds c.probe s)
  | released (mem : (c.proxyId, c.token) ∈ a.releasedClaims c.probe)
  | replaced {ev : Event} (event : a.event? = some ev) (replaces : ev.Replaces s.db c.proxyId)
  | archived {s' : ProbeState} {r : Proxy} (next : s.next a = some s') (mem : r ∈ s'.db.proxies)
      (id : r.id = c.proxyId) (archived : r.archivedAt ≠ none)

theorem close_unclaimed {db : Db} {i : Nat} {result : EarnappResult} {previous : Proxy}
    {refreshHours : Int} {now : Timestamp} {r' : Proxy}
    (hr' : r' ∈ (result.close db i previous refreshHours now).proxies) (hid : r'.id = i) :
    r'.earnappClaimToken = none := by
  obtain ⟨r, _, rfl⟩ := Table.mem_update.mp hr'
  split
  · rfl
  · rename_i hother
    simp only [hother, if_false] at hid

section Ends

variable {s s' : ProbeState} {c : ProbeClaim} {a : ProbeAction}

/-- An accepted report finds the token in the row; its closing statement need not. -/
theorem ProbeState.Sound.applies_holds (hs : s.Sound) (hnext : s.next a = some s')
    (happlies : a.Applies c s) (hclosing : ∀ x, a = .closeEarnapp x → c.Holds s.db) :
    c.token ∈ s.issued ∧ c.Holds s.db := by
  have htoken : ∀ {stored : Option String}, c ∈ s.claims → stored.getD "" = c.token →
      stored = some c.token := by
    intro stored hmem hsame
    cases stored with
    | none => exact absurd hsame.symm (hs.claims c hmem).2
    | some t => exact congrArg some hsame
  cases a with
  | applyHealth claim result now wall =>
    obtain ⟨rfl, hfound, _⟩ := happlies
    obtain ⟨⟨hmem, hprobe⟩, _⟩ := ProbeState.next_applyHealth hnext
    obtain ⟨row, hrow⟩ := Option.isSome_iff_exists.mp hfound
    obtain ⟨hrow', hid, hkept, hcurrent⟩ := HealthResult.row?_mem hrow
    refine ⟨(hs.claims claim hmem).1, row, hrow', hid, hkept, ?_⟩
    rw [hprobe]
    exact htoken hmem (hcurrent.2 _ rfl)
  | applyEarnapp claim result now wall =>
    obtain ⟨rfl, row, hrow, _⟩ := happlies
    obtain ⟨⟨hmem, hprobe⟩, _⟩ := ProbeState.next_applyEarnapp hnext
    obtain ⟨hrow', hid, hkept, hcurrent⟩ := EarnappResult.row?_mem hrow
    refine ⟨(hs.claims claim hmem).1, row, hrow', hid, hkept, ?_⟩
    rw [hprobe]
    exact htoken hmem (hcurrent.2 _ rfl)
  | closeEarnapp x =>
    obtain rfl : x.claim = c := happlies
    obtain ⟨hmem, _⟩ := ProbeState.next_closeEarnapp hnext
    exact ⟨(hs.claims _ (hs.closings x hmem).1).1, hclosing x rfl⟩
  | _ => exact happlies.elim

/-- A claim with another token takes the row. -/
theorem ProbeState.Sound.claimed_lost {probe : Probe} {rows : List Proxy} {current : Timestamp}
    {token : String} (htoken : token ∉ s.issued) (hissued : c.token ∈ s.issued)
    (hprobe : c.probe = probe)
    (hmem : c.proxyId ∈ ((claimRows probe s.db rows current token).map Prod.snd).getD []) :
    ¬ c.Holds (s.claimed probe token (claimRows probe s.db rows current token)).db := by
  cases hclaim : claimRows probe s.db rows current token with
  | none => simp [hclaim] at hmem
  | some x =>
    obtain ⟨db', ids⟩ := x
    obtain rfl := claimRows_some hclaim
    simp only [hclaim, Option.map_some, Option.getD_some] at hmem
    rintro ⟨r', hr', hid, _, hheld⟩
    obtain ⟨r, hr, rfl⟩ := Table.mem_update.mp hr'
    by_cases hclaimed : r.id ∈ ids
    · rw [if_pos hclaimed, Proxy.claimed_token, if_pos hprobe] at hheld
      exact htoken (Option.some.inj hheld ▸ hissued)
    · rw [if_neg hclaimed] at hid
      exact hclaimed (hid ▸ hmem)

/-- A report that is written to its end takes the claim out of the row. -/
theorem ProbeState.Sound.applied_lost (hs : s.Sound) (hnext : s.next a = some s')
    (happlies : a.Applies c s) (hclosed : a.opens = false) : ¬ c.Holds s'.db := by
  have hk := hs.wellFormed.keyed
  rintro ⟨r', hr', hid, _, hheld⟩
  cases a with
  | applyHealth claim result now wall =>
    obtain ⟨rfl, hfound, hok⟩ := happlies
    obtain ⟨⟨_, hprobe⟩, rfl⟩ := ProbeState.next_applyHealth hnext
    obtain ⟨row, hrow⟩ := Option.isSome_iff_exists.mp hfound
    obtain ⟨db', hdb'⟩ := eq_of_isOk hok
    rw [exec_of_ok hdb'] at hr'
    have happly : applyHealthResult s.db claim.proxyId (claim.health result) now wall = .ok db' :=
      hdb'
    have hunclaimed := (applyHealthResult_checked hk hrow happly hr' hid).unclaimed
    rw [hprobe] at hheld
    exact absurd (hunclaimed.symm.trans hheld) nofun
  | applyEarnapp claim result now wall =>
    obtain ⟨rfl, row, hrow, hok⟩ := happlies
    obtain ⟨⟨_, hprobe⟩, rfl⟩ := ProbeState.next_applyEarnapp hnext
    obtain ⟨settled, hsettled⟩ := eq_of_isOk hok
    have hwhole : (claim.earnapp result).authenticatedExitIp = none := by
      simpa [ProbeAction.opens] using hclosed
    have happly : EarnProxy.step s.db
        ⟨.applyEarnappResult claim.proxyId (claim.earnapp result), now, wall⟩ =
        .ok ((claim.earnapp result).close settled claim.proxyId row
          (checkerSettings s.db).earnappRefreshHours now) := by
      simp only [EarnProxy.step, applyEarnappResult, Option.mem_def.mp hrow, hsettled]
      rfl
    have hwritten : (s.reported claim (claim.earnapp result) now wall).db = exec s.db
        ⟨.applyEarnappResult claim.proxyId (claim.earnapp result), now, wall⟩ := by
      simp only [ProbeState.reported, hwhole]
    rw [hwritten, exec_of_ok happly] at hr'
    rw [hprobe] at hheld
    exact absurd ((close_unclaimed hr' hid).symm.trans hheld) nofun
  | closeEarnapp x =>
    obtain rfl : x.claim = c := happlies
    obtain ⟨hmem, rfl⟩ := ProbeState.next_closeEarnapp hnext
    rw [(hs.closings x hmem).2] at hheld
    exact absurd ((close_unclaimed hr' hid).symm.trans hheld) nofun
  | _ => exact happlies

/-- A replaced row is claimed by nobody. -/
theorem ProbeState.replaced_lost {ev : Event} (hnext : s.next a = some s')
    (hevent : a.event? = some ev) (hreplaces : ev.Replaces s.db c.proxyId) : ¬ c.Holds s'.db := by
  rintro ⟨r', hr', hid, _, hheld⟩
  obtain ⟨op, now, wall⟩ := ev
  cases op with
  | replaceProxy proxyId userId parsed =>
    obtain ⟨rfl, hok⟩ := hreplaces
    obtain ⟨db', hdb'⟩ := eq_of_isOk hok
    have hdb : s'.db = exec s.db ⟨.replaceProxy c.proxyId userId parsed, now, wall⟩ := by
      cases a with
      | service ev =>
        obtain rfl := Option.some.inj hevent
        simp only [ProbeState.next] at hnext
        split at hnext
        · cases hnext
        · rw [← Option.some.inj hnext]
      | _ => simp [ProbeAction.event?] at hevent
    rw [hdb, exec_of_ok hdb'] at hr'
    have hreplace : replaceProxy s.db c.proxyId userId parsed now wall = .ok db' := hdb'
    obtain ⟨r, rfl⟩ := replaceProxy_replaced hreplace hr' hid
    cases hprobe : c.probe <;> rw [hprobe] at hheld <;> cases hheld
  | _ => exact hreplaces

theorem ProbeState.Sound.ends_lost (hs : s.Sound) (hnext : s.next a = some s')
    (hissued : c.token ∈ s.issued) (hends : a.Ends c s) : ¬ c.Holds s'.db := by
  have hs' := (hs.next hnext).sound
  cases hends with
  | applied happlies hclosed => exact hs.applied_lost hnext happlies hclosed
  | reclaimed hmem =>
    cases a with
    | claimDueProxies | claimDueEarnapp =>
      simp only [ProbeAction.claimedIds] at hmem
      split at hmem
      · simp only [ProbeState.next] at hnext
        split at hnext
        · cases hnext
        · exact Option.some.inj hnext ▸ ProbeState.Sound.claimed_lost ‹_› hissued ‹_› hmem
      · cases hmem
    | _ => cases hmem
  | released hmem =>
    cases a with
    | releaseHealthClaims claims current | releaseEarnappClaims claims current =>
      simp only [ProbeAction.releasedClaims] at hmem
      split at hmem
      · rename_i hprobe
        have hlost := hs.released_lost current hissued hmem
        rw [hprobe] at hlost
        exact Option.some.inj hnext ▸ hlost
      · cases hmem
    | _ => cases hmem
  | replaced hevent hreplaces => exact ProbeState.replaced_lost hnext hevent hreplaces
  | archived hnext' hmem hid harchived =>
    obtain rfl := Option.some.inj (hnext.symm.trans hnext')
    rintro ⟨r', hr', hid', hkept, _⟩
    exact harchived (hs'.wellFormed.keyed.eq hmem hr' (hid.trans hid'.symm) ▸ hkept)

end Ends

/-! ## Doubt about the egress -/

/-- The result reports that the egress changed or does not match, or that the row was silent for too
long, or that the proxy failed or is blocked. -/
def HealthResult.CastsDoubt (result : HealthResult) (row : Proxy) (settings : CheckerSettings)
    (current : Timestamp) : Prop :=
  match result.branch with
  | .live =>
    let o := observeLive row result settings.healthStaleMinutes current
    o.egressChanged ∨ o.untrustedEgressMismatch ∨ o.staleRecovery
  | .uncertain => False
  | .egressUnconfirmed | .blocked | .failure => True

instance (result : HealthResult) (row : Proxy) (settings : CheckerSettings) (current : Timestamp) :
    Decidable (result.CastsDoubt row settings current) := by
  unfold HealthResult.CastsDoubt
  split <;> infer_instance

/-- A doubt takes the EarnApp claim away, except when a fast probe leaves it to a strong one to
confirm that the egress changed. -/
theorem HealthResult.CastsDoubt.fences {result : HealthResult} {row : Proxy}
    {settings : CheckerSettings} {current : Timestamp}
    (h : result.CastsDoubt row settings current) (hconfirmed : result.branch ≠ .egressUnconfirmed) :
    result.FencesEarnapp row settings current := by
  unfold HealthResult.CastsDoubt at h
  unfold HealthResult.FencesEarnapp
  cases hbranch : result.branch with
  | live =>
    simp only [hbranch] at h
    simp only [LiveObservation.fencesEarnapp, LiveObservation.breaksCycle, Bool.or_eq_true]
    grind
  | uncertain => simp only [hbranch] at h
  | egressUnconfirmed => exact hconfirmed hbranch
  | blocked => trivial
  | failure => trivial

/-- The action applies a health result about row `i` that casts doubt. -/
def ProbeAction.Doubts (i : Nat) (s : ProbeState) (a : ProbeAction) : Prop :=
  match a with
  | .applyHealth claim result now _ =>
    claim.proxyId = i ∧ a.Applies claim s ∧ ∃ row ∈ (claim.health result).row? s.db i,
      (claim.health result).CastsDoubt row (checkerSettings s.db) now
  | _ => False

instance (i : Nat) (s : ProbeState) (a : ProbeAction) : Decidable (a.Doubts i s) := by
  rcases a with ⟨⟩ <;> unfold ProbeAction.Doubts <;> infer_instance

/-- A change of egress is left to be confirmed only of a row without an EarnApp claim, and a closing
statement finds the claim of its report in the row. -/
def ProbeAction.Undisturbed (s : ProbeState) : ProbeAction → Prop
  | .applyHealth claim result _ _ =>
    (claim.health result).branch = .egressUnconfirmed →
      ∀ row ∈ (claim.health result).row? s.db claim.proxyId, row.earnappClaimToken = none
  | .closeEarnapp closing => closing.claim.Holds s.db
  | _ => True

instance (c : ProbeClaim) (db : Db) : Decidable (c.Holds db) :=
  inferInstanceAs (Decidable (∃ r ∈ db.proxies, _))

instance (s : ProbeState) (a : ProbeAction) : Decidable (a.Undisturbed s) := by
  rcases a with ⟨⟩ <;> unfold ProbeAction.Undisturbed <;> infer_instance

/-- A doubt leaves the row without its EarnApp claim. -/
theorem ProbeState.Sound.doubts_lost {s s' : ProbeState} (hs : s.Sound) {a : ProbeAction}
    {c : ProbeClaim} (hnext : s.next a = some s') (hissued : c.token ∈ s.issued)
    (hprobe : c.probe = .earnapp) (hdoubts : a.Doubts c.proxyId s) (hund : a.Undisturbed s) :
    ¬ c.Holds s'.db := by
  cases a with
  | applyHealth claim result now wall =>
    obtain ⟨hproxy, ⟨_, _, hok⟩, row, hrow, hdoubt⟩ := hdoubts
    by_cases hconfirmed : (claim.health result).branch = .egressUnconfirmed
    · -- the row has no EarnApp claim before, and none afterwards
      refine (hs.next hnext).lost hs hissued ?_
      rintro ⟨r, hr, hid, _, hheld⟩
      obtain ⟨hmem, hrowid, -⟩ := HealthResult.row?_mem hrow
      obtain rfl := hs.wellFormed.keyed.eq hr hmem (hid.trans hrowid.symm)
      rw [hprobe] at hheld
      exact absurd ((hund hconfirmed r (hproxy ▸ hrow)).symm.trans hheld) nofun
    · obtain ⟨_, rfl⟩ := ProbeState.next_applyHealth hnext
      obtain ⟨db', hdb'⟩ := eq_of_isOk hok
      rintro ⟨r', hr', hid, _, hheld⟩
      rw [exec_of_ok hdb'] at hr'
      have happly : applyHealthResult s.db c.proxyId (claim.health result) now wall = .ok db' :=
        hproxy ▸ hdb'
      have hchecked := applyHealthResult_checked hs.wellFormed.keyed hrow happly hr' hid
      rw [hprobe] at hheld
      exact absurd ((hchecked.fenced (hdoubt.fences hconfirmed)).symm.trans hheld) nofun
  | _ => exact hdoubts.elim

/-! ## Runs -/

section Runs

variable {db₀ : Db} {h : List (ProbeAction × ProbeState)} {s s' : ProbeState} {a : ProbeAction}

theorem ProbeRuns.sound (hfresh : db₀.Fresh) (run : ProbeRuns { db := db₀ } h s) : s.Sound := by
  refine History.Run.always (ProbeState.start_sound hfresh) ?_ run
  exact fun s a s' hs hnext => (hs.next hnext).sound

/-- After an action that takes the row from a claim, no report on the claim finds it there. -/
theorem ProbeRuns.fenced (hfresh : db₀.Fresh) (run : ProbeRuns { db := db₀ } h s) {c : ProbeClaim}
    (hholds : c.Holds s.db) (takes : ProbeState → ProbeAction → Prop)
    (htakes : ∀ s a s', s.Sound → s.next a = some s' → c.token ∈ s.issued → takes s a →
      ¬ c.Holds s'.db) :
    ¬ History.Sometime (fun s a => c.token ∈ s.issued ∧ takes s a)
      ({ db := db₀ } : ProbeState) h := by
  intro htaken
  have hs := ProbeRuns.sound hfresh run
  obtain ⟨_, hlost⟩ := Fencing.Board.lost_for_good (B := fun s => s.board c.probe)
    (k := c.proxyId) (t := c.token)
    (fun _ _ _ _ hrun hnext => ((ProbeRuns.sound hfresh hrun).next hnext).board c.probe)
    (fun h s a s' hrun hnext htake => by
      have hs := ProbeRuns.sound hfresh hrun
      have hadvances := hs.next hnext
      refine ⟨(hadvances.board c.probe).issued htake.1, ?_⟩
      rw [ne_eq, ProbeState.holder_eq hadvances.sound.wellFormed.keyed]
      exact htakes s a s' hs hnext htake.1 htake.2) run htaken
  rw [ne_eq, ProbeState.holder_eq hs.wellFormed.keyed] at hlost
  exact hlost hholds

/-- A health result is written at most once for a claim, and never after its row was claimed again,
released, replaced or archived. If no action of the run disturbs a report, the same is true of an
EarnApp verdict, and none is written that was claimed before a health result that casts doubt on the
row. -/
theorem probe_results_fenced (hfresh : db₀.Fresh) (run : ProbeRuns { db := db₀ } h s)
    (hnext : s.next a = some s') (c : ProbeClaim) (happlies : a.Applies c s) :
    (c.probe = .health → ¬ History.Sometime (fun s a => c.token ∈ s.issued ∧ a.Ends c s)
      ({ db := db₀ } : ProbeState) h) ∧
    (History.Throughout (fun s a => ProbeAction.Undisturbed s a) ({ db := db₀ } : ProbeState) h →
      a.Undisturbed s →
        (¬ History.Sometime (fun s a => c.token ∈ s.issued ∧ a.Ends c s)
          ({ db := db₀ } : ProbeState) h) ∧
        (c.probe = .earnapp → ¬ History.Sometime
          (fun s a => c.token ∈ s.issued ∧ a.Doubts c.proxyId s)
          ({ db := db₀ } : ProbeState) h)) := by
  have hs := ProbeRuns.sound hfresh run
  have hends (hholds : c.Holds s.db) := ProbeRuns.fenced hfresh run hholds
    (fun s a => a.Ends c s) fun s a s' hs hnext hissued hends =>
      hs.ends_lost hnext hissued hends
  refine ⟨fun hprobe => hends ?_, fun hthroughout hund => ?_⟩
  · -- the closing statement of an EarnApp report is no health result
    refine (hs.applies_holds hnext happlies fun x hx => ?_).2
    subst hx
    obtain rfl : x.claim = c := happlies
    cases hprobe.symm.trans (hs.closings x (ProbeState.next_closeEarnapp hnext).1).2
  have hholds : c.Holds s.db := by
    refine (hs.applies_holds hnext happlies fun x hx => ?_).2
    subst hx
    obtain rfl : x.claim = c := happlies
    exact hund
  refine ⟨hends hholds, fun hprobe hdoubts => ?_⟩
  refine ProbeRuns.fenced hfresh run hholds
    (fun s a => a.Doubts c.proxyId s ∧ a.Undisturbed s)
    (fun s a s' hs hnext hissued htakes =>
      hs.doubts_lost hnext hissued hprobe htakes.1 htakes.2) ?_
  exact (hdoubts.and_throughout hthroughout).imp fun _ _ _ h => ⟨h.1.1, h.1.2, h.2⟩

end Runs

/-! ## A run -/

/-- The states of a list of actions. -/
def ProbeState.history (db : Db) (actions : List ProbeAction) : List (ProbeAction × ProbeState) :=
  History.replay (fun s a => (s.next a).getD s) { db := db } actions

def ProbeState.after (db : Db) (actions : List ProbeAction) : ProbeState :=
  History.current { db := db } (ProbeState.history db actions)

namespace Scenario

/-- A proxy is seen live, and claimed by both workers. -/
def bothClaimed : List ProbeAction :=
  [.service (minute 0 (.addProxy 1 (endpoint "192.0.2.1") none)),
    .claimDueProxies (minutes 1) none (some 2) "health-1", .readBack ⟨.health, [1], "health-1"⟩,
    .applyHealth ⟨.health, 1, 1, "health-1"⟩ (liveFrom "198.51.100.7") (minutes 1) (minutes 1),
    .claimDueEarnapp (minutes 61) 2 "earnapp-1", .readBack ⟨.earnapp, [1], "earnapp-1"⟩,
    .claimDueProxies (minutes 61) none (some 2) "health-2", .readBack ⟨.health, [1], "health-2"⟩]

/-- The report on the first EarnApp claim. -/
def verdict : ProbeAction :=
  .applyEarnapp ⟨.earnapp, 1, 1, "earnapp-1"⟩ (allowedFrom "198.51.100.7") (minutes 63) (minutes 63)

/-- The second health check reports. -/
def secondCheck (result : HealthResult) (n : Int) : ProbeAction :=
  .applyHealth ⟨.health, 1, 1, "health-2"⟩ result (minutes n) (minutes n)

/-- A health check that finds nothing comes between the two parts of the verdict. -/
def verdictBegun : List ProbeAction :=
  bothClaimed ++ [verdict, secondCheck { status := "inconclusive" } 64]

/-- A health check that finds the proxy blocked comes between the two parts of the verdict. -/
def verdictOvertaken : List ProbeAction :=
  bothClaimed ++ [verdict, secondCheck { status := "blocked" } 64]

/-- A fast health check sees another address before the verdict. -/
def verdictDuringConfirmation : List ProbeAction :=
  bothClaimed ++
    [secondCheck { status := "needs_confirmation", failureKind := "egress_changed" } 62]

end Scenario

theorem verdictBegun_runs : ProbeRuns { db := Scenario.oneUser }
    (ProbeState.history Scenario.oneUser Scenario.verdictBegun)
    (ProbeState.after Scenario.oneUser Scenario.verdictBegun) :=
  History.run_replay_accepted (by decide +kernel)

theorem verdictOvertaken_runs : ProbeRuns { db := Scenario.oneUser }
    (ProbeState.history Scenario.oneUser Scenario.verdictOvertaken)
    (ProbeState.after Scenario.oneUser Scenario.verdictOvertaken) :=
  History.run_replay_accepted (by decide +kernel)

theorem verdictDuringConfirmation_runs : ProbeRuns { db := Scenario.oneUser }
    (ProbeState.history Scenario.oneUser Scenario.verdictDuringConfirmation)
    (ProbeState.after Scenario.oneUser Scenario.verdictDuringConfirmation) :=
  History.run_replay_accepted (by decide +kernel)

open Scenario in
/-- The closing statement of an undisturbed report. -/
theorem probe_results_fenced_verdictBegun :
    let s := ProbeState.after oneUser verdictBegun
    ∃ x ∈ s.closings, x.claim = ⟨.earnapp, 1, 1, "earnapp-1"⟩ ∧ x.claim.Holds s.db ∧
      ¬ History.Sometime (fun s a => x.claim.token ∈ s.issued ∧ a.Ends x.claim s)
        ({ db := oneUser } : ProbeState) (ProbeState.history oneUser verdictBegun) ∧
      ¬ History.Sometime (fun s a => x.claim.token ∈ s.issued ∧ a.Doubts x.claim.proxyId s)
        ({ db := oneUser } : ProbeState) (ProbeState.history oneUser verdictBegun) := by
  intro s
  obtain ⟨x, hx, hclaim, hholds⟩ : ∃ x ∈ s.closings,
      x.claim = ⟨.earnapp, 1, 1, "earnapp-1"⟩ ∧ x.claim.Holds s.db := by decide +kernel
  have hnext : s.next (.closeEarnapp x) =
      some { s with db := x.run s.db, closings := s.closings.erase x } := if_pos hx
  obtain ⟨hends, hdoubts⟩ := (probe_results_fenced oneUser_fresh verdictBegun_runs hnext x.claim
    rfl).2 (by decide +kernel) hholds
  exact ⟨x, hx, hclaim, hholds, hends, hdoubts (by rw [hclaim])⟩

open Scenario in
/-- A verdict overtakes the health result that came between its two parts: the blocked row earns. -/
example :
    ∃ x ∈ (ProbeState.after oneUser verdictOvertaken).closings,
      ∃ r ∈ (x.run (ProbeState.after oneUser verdictOvertaken).db).proxies,
        r.status = .blocked ∧ r.eligibility = .allow := by
  decide +kernel

open Scenario in
theorem probe_results_verdictOvertaken : ¬ ∀ (db₀ : Db) h (s s' : ProbeState) a (c : ProbeClaim),
    db₀.Fresh → ProbeRuns { db := db₀ } h s → s.next a = some s' → a.Applies c s →
      c.probe = .earnapp → ¬ History.Sometime
        (fun s a => c.token ∈ s.issued ∧ a.Doubts c.proxyId s) ({ db := db₀ } : ProbeState) h := by
  intro hall
  obtain ⟨x, hx, hclaim⟩ : ∃ x ∈ (ProbeState.after oneUser verdictOvertaken).closings,
      x.claim = ⟨.earnapp, 1, 1, "earnapp-1"⟩ := by decide +kernel
  refine hall oneUser _ _ _ (.closeEarnapp x) ⟨.earnapp, 1, 1, "earnapp-1"⟩ oneUser_fresh
    verdictOvertaken_runs (if_pos hx) hclaim rfl (by decide +kernel)

open Scenario in
/-- A change of egress that a fast probe reports does not stop an earlier EarnApp verdict either. -/
theorem probe_results_unconfirmedChange : ¬ ∀ (db₀ : Db) h (s s' : ProbeState) a (c : ProbeClaim),
    db₀.Fresh → ProbeRuns { db := db₀ } h s → s.next a = some s' → a.Applies c s →
      c.probe = .earnapp → ¬ History.Sometime
        (fun s a => c.token ∈ s.issued ∧ a.Doubts c.proxyId s) ({ db := db₀ } : ProbeState) h := by
  intro hall
  obtain ⟨s', hnext⟩ := Option.isSome_iff_exists.mp (show ((ProbeState.after oneUser
    verdictDuringConfirmation).next verdict).isSome by decide +kernel)
  refine hall oneUser _ _ s' verdict ⟨.earnapp, 1, 1, "earnapp-1"⟩ oneUser_fresh
    verdictDuringConfirmation_runs hnext (by decide +kernel) rfl (by decide +kernel)

end EarnProxy
