import EarnProxy.System

/-!
# What holds in every reachable state

The invariants that later modules share: rows are identified by their ids, every entry belongs to
a row of its user, statuses agree with the counters, and no cursor lies before its probation start.
-/

namespace EarnProxy

/-- Both clocks are set, and accrual starts no earlier than the probation cycle. -/
def Proxy.Clocked (r : Proxy) : Prop :=
  ∃ probation cursor, r.probationStartedAt = some probation ∧ r.accrualCursorAt = some cursor ∧
    probation ≤ cursor

structure Db.WellFormed (db : Db) : Prop where
  keyed : Table.Keyed Proxy.id db.proxies
  sound : ∀ r ∈ db.proxies, r.Sound
  clocked : ∀ r ∈ db.proxies, r.Clocked
  owned : ∀ e ∈ db.ledger, ∃ r ∈ db.proxies, r.id = e.proxyId ∧ r.userId = e.userId

theorem mem_setCursor {db : Db} {i : Nat} {at_ : Timestamp} {r' : Proxy} :
    r' ∈ (setCursor db i at_).proxies ↔
      ∃ r ∈ db.proxies, (if r.id = i then { r with accrualCursorAt := some at_ } else r) = r' :=
  Table.mem_update

/-- A visited table has a row for every row there was. -/
theorem CursorsMoved.image {P : Nat → Prop} {db db' : Db} (h : CursorsMoved P db db') {r : Proxy}
    (hr : r ∈ db.proxies) : ∃ r' ∈ db'.proxies, r.SameButCursor r' := by
  obtain ⟨φ, hφ, hsame⟩ := h.rows
  refine ⟨φ r, ?_, (hsame r).1⟩
  rw [hφ]
  exact List.mem_map_of_mem hr

/-- A row of a visited table is as it was, or its cursor has moved along a span. -/
theorem Visit.origin {now : Timestamp} {i : Nat} {db db' : Db} (h : Visit now i db db')
    (hk : Table.Keyed Proxy.id db.proxies) {r' : Proxy} (hr' : r' ∈ db'.proxies) :
    r' ∈ db.proxies ∨ ∃ r user cursor until_, Span now db r user cursor until_ ∧
      r' = { r with accrualCursorAt := some until_ } := by
  have hcursor : ∀ {row : Proxy} {user : User} {cursor until_ : Timestamp}, row.id = i →
      Span now db row user cursor until_ → r' ∈ (setCursor db i until_).proxies →
      r' ∈ db.proxies ∨ ∃ r user cursor until_, Span now db r user cursor until_ ∧
        r' = { r with accrualCursorAt := some until_ } := by
    intro row user cursor until_ hi span hr'
    obtain ⟨r, hr, rfl⟩ := mem_setCursor.mp hr'
    split
    · rename_i hri
      obtain rfl := hk.eq hr span.mem (hri.trans hi.symm)
      exact .inr ⟨r, user, cursor, until_, span, rfl⟩
    · exact .inl hr
  cases h with
  | skip hi span _ => exact hcursor hi span hr'
  | credit hi span _ _ _ => exact hcursor hi span hr'

theorem Visit.wellFormed {now : Timestamp} {i : Nat} {db db' : Db} (h : Visit now i db db')
    (hwf : db.WellFormed) : db'.WellFormed := by
  have hmoved : CursorsMoved (fun _ => True) db db' := h.moved trivial
  -- the cursor of the visited row moves forward
  have hclocked : ∀ r ∈ db'.proxies, r.Clocked := by
    intro r' hr'
    rcases h.origin hwf.keyed hr' with hr | ⟨r, user, cursor, until_, span, rfl⟩
    · exact hwf.clocked r' hr
    · obtain ⟨probation, c, hp, hc, hle⟩ := hwf.clocked r span.mem
      rw [span.start] at hc
      obtain rfl := Option.some.inj hc
      exact ⟨probation, until_, hp, rfl, hle.trans span.nonempty.le⟩
  have howned : ∀ e ∈ db.ledger, ∃ r ∈ db'.proxies, r.id = e.proxyId ∧ r.userId = e.userId := by
    intro e he
    obtain ⟨r, hr, hid, huser⟩ := hwf.owned e he
    obtain ⟨r', hr', hsame⟩ := hmoved.image hr
    exact ⟨r', hr', hsame.id.trans hid, (by rw [hsame] : r'.userId = r.userId).trans huser⟩
  refine ⟨hmoved.keyed hwf.keyed, fun r' hr' => ?_, hclocked, fun e he => ?_⟩
  · obtain ⟨r, hr, hsame⟩ := hmoved.origin hr'
    rw [hsame]
    have := hwf.sound r hr
    exact ⟨this.offline, this.pending, this.archived⟩
  · cases h with
    | skip hi span unpaid => exact howned e he
    | credit hi span payable credits hignored =>
      rcases List.mem_append.mp he with he | he
      · rcases mem_unlockCycle he with he | ⟨_, e₀, he₀, _, _, _, rfl⟩
        · exact howned e he
        · exact howned e₀ he₀
      · obtain ⟨hrow, huser, _⟩ := credits.own e he
        obtain ⟨r', hr', hsame⟩ := hmoved.image span.mem
        exact ⟨r', hr', hsame.id.trans hrow.symm,
          (by rw [hsame] : r'.userId = _).trans huser.symm⟩

theorem Visits.wellFormed {now : Timestamp} {P : Nat → Prop} {db db' : Db}
    (h : Visits now P db db') (hwf : db.WellFormed) : db'.WellFormed :=
  h.keeps (fun _ _ _ _ hwf hvisit => hvisit.wellFormed hwf) hwf

theorem RowEdit.clocked {lic : Licence} {settled : Prop} {r r' : Proxy}
    (h : RowEdit lic settled r r') (hr : r.Clocked) : r'.Clocked := by
  obtain ⟨probation, cursor, hp, hc, hle⟩ := hr
  rcases h.clocks with ⟨hc', hp'⟩ | ⟨_, hc', hp'⟩
  · exact ⟨probation, cursor, hp'.trans hp, hc'.trans hc, hle⟩
  · exact ⟨lic.now, lic.now, hp', hc', le_rfl⟩

theorem Edited.wellFormed {lic : Licence} {db db' : Db} (h : Edited lic db db')
    (hwf : db.WellFormed) : db'.WellFormed := by
  have hkeyed := h.keyed hwf.keyed
  obtain ⟨φ, ids, rfl, hφ⟩ := h
  refine ⟨hkeyed, fun r' hr' => ?_, fun r' hr' => ?_, fun e' he' => ?_⟩
  · obtain ⟨r, hr, rfl⟩ := List.mem_map.mp hr'
    exact (hφ r hr).sound (hwf.sound r hr)
  · obtain ⟨r, hr, rfl⟩ := List.mem_map.mp hr'
    exact (hφ r hr).clocked (hwf.clocked r hr)
  · have howned : ∀ e ∈ db.ledger, ∃ r ∈ db.proxies.map φ,
        r.id = e.proxyId ∧ r.userId = e.userId := by
      intro e he
      obtain ⟨r, hr, hid, huser⟩ := hwf.owned e he
      exact ⟨φ r, List.mem_map_of_mem hr, (hφ r hr).id.trans hid, (hφ r hr).owner.trans huser⟩
    rcases mem_expireIn he' with ⟨he, _⟩ | ⟨e, he, _, _, rfl⟩
    · exact howned e' he
    · exact howned e he

theorem newProxy_fresh {db : Db} {userId : Nat} {parsed : ParsedProxy} {now : Timestamp} {r : Proxy}
    (hr : r ∈ db.proxies) : r.id ≠ (newProxy db userId parsed now).id :=
  (Table.lt_nextKey hr).ne

theorem Effect.wellFormed {db db' : Db} {ev : Event} (h : Effect db ev db')
    (hwf : db.WellFormed) : db'.WellFormed := by
  cases h with
  | proxies hphased =>
    obtain ⟨accrued, hvisits, hedits⟩ := hphased
    exact hedits.wellFormed (hvisits.wellFormed hwf)
  | @added userId parsed =>
    refine ⟨hwf.keyed.append_fresh fun r hr => newProxy_fresh hr, ?_, ?_, ?_⟩
    · intro r hr
      rcases List.mem_append.mp hr with hr | hr
      · exact hwf.sound r hr
      · obtain rfl := List.mem_singleton.mp hr
        exact
          { offline := fun h => nomatch h
            pending := fun _ => rfl
            archived := fun h => nomatch h }
    · intro r hr
      rcases List.mem_append.mp hr with hr | hr
      · exact hwf.clocked r hr
      · obtain rfl := List.mem_singleton.mp hr
        exact ⟨ev.now, ev.now, rfl, rfl, le_rfl⟩
    · intro e he
      obtain ⟨r, hr, hid⟩ := hwf.owned e he
      exact ⟨r, List.mem_append_left _ hr, hid⟩
  | others hsame =>
    exact ⟨hsame.proxies ▸ hwf.keyed, hsame.proxies ▸ hwf.sound, hsame.proxies ▸ hwf.clocked,
      by rw [hsame.ledger, hsame.proxies]; exact hwf.owned⟩

theorem Db.Fresh.wellFormed {db : Db} (h : db.Fresh) : db.WellFormed := by
  refine ⟨?_, ?_, ?_, ?_⟩
  · rw [h.proxies]
    exact List.nodup_nil
  · simp [h.proxies]
  · simp [h.proxies]
  · simp [h.ledger]

section Runs

variable {db₀ db : Db} {h : List (Event × Db)}

theorem Runs.wellFormed (hfresh : db₀.Fresh) (run : Runs db₀ h db) : db.WellFormed := by
  refine History.Run.always hfresh.wellFormed ?_ run
  rintro s ev s' hwf rfl
  exact (exec_effect hwf.keyed ev).wellFormed hwf

/-- The induction over runs from a fresh database: the step lemma may use that the state it starts
from is reachable and well formed, and it sees the effect of the event. -/
theorem Runs.invariant {I : List (Event × Db) → Db → Prop} (hfresh : db₀.Fresh) (base : I [] db₀)
    (keep : ∀ h s ev s', Runs db₀ h s → s.WellFormed → I h s → exec s ev = s' → Effect s ev s' →
      I ((ev, s') :: h) s')
    (run : Runs db₀ h db) : I h db := by
  refine History.Run.invariant base ?_ run
  rintro h s ev s' hrun hI hexec
  have hwf : s.WellFormed := Runs.wellFormed hfresh hrun
  exact keep h s ev s' hrun hwf hI hexec (hexec ▸ exec_effect hwf.keyed ev)

end Runs

end EarnProxy
