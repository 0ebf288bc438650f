import Mathlib.Order.Interval.Finset.Nat
import Mathlib.Data.Int.Interval
import EarnProxy.Library.IntervalUnion
import EarnProxy.Rounding

/-!
# `earning_online_seconds_for_proxies`

The dashboard shows the time that the ledger entries of a row cover, and the confirmed time that no
accrual has settled yet. Each instant is shown once, however the entries overlap, and an accrual
does not change what is shown unless it pays for time before the row came online.
-/

namespace EarnProxy

open IntervalUnion

/-! ## The projection -/

/-- `credential_starts`: of two rows with one id, the later one counts. -/
def credentialStart? (rows : List Proxy) (proxyId : Nat) : Option Timestamp :=
  (Table.lookup Proxy.id proxyId rows.reverse).map Proxy.credentialStartedAt

/-- What the loop over the ledger keeps of an entry. -/
def boundedInterval (credentialStart : Option Timestamp) (current : Timestamp) (e : LedgerEntry) :
    Option (Timestamp × Timestamp) :=
  if ∃ start ∈ credentialStart, e.startedAt < start then none
  else
    let boundedStart := min current e.startedAt
    let boundedEnd := min current e.endedAt
    if boundedEnd ≤ boundedStart then none else some (boundedStart, boundedEnd)

/-- `ledger_intervals[proxy_id]`. -/
def ledgerIntervals (db : Db) (rows : List Proxy) (current : Timestamp) (proxyId : Nat) :
    List (Timestamp × Timestamp) :=
  (db.ledger.filter fun e => e.proxyId = proxyId ∧
    (e.bucket = .pending ∨ e.bucket = .available)).filterMap
    (boundedInterval (credentialStart? rows proxyId) current)

/-- The confirmed time behind `ledgerEnd`, the end of what the ledger covers. -/
def Proxy.unsettled (row : Proxy) (current : Timestamp) (stale : Int)
    (ledgerEnd : Option Timestamp) :
    Option (Timestamp × Timestamp) :=
  match row.accrualCursorAt, row.lastSuccessAt, row.onlineSince with
  | some cursor, some lastSuccess, some onlineSince =>
    let currentEnd := min current (lastSuccess + stale)
    let started := max (max onlineSince cursor) (ledgerEnd.getD cursor)
    let currentStart := match row.probationStartedAt with
      | some probation => max started probation
      | none => started
    if currentStart < currentEnd then some (currentStart, currentEnd) else none
  | _, _, _ => none

/-- One round of the loop over the rows: the new total. -/
def Proxy.projected (row : Proxy) (current : Timestamp) (stale : Int)
    (merged : List (Timestamp × Timestamp)) (total : Nat) : Nat :=
  if ¬ row.eligibility.Earning then 0
  else if row.duplicateOf ≠ none then 0
  else if row.egressAttestationSource = none ∨ row.exitIp = none then 0
  else if ¬ row.status.up then total
  else match row.unsettled current stale (merged.head?.map Prod.snd) with
  | some span => total + wholeSeconds (span.2 - span.1)
  | none => total

/-- `earning_online_seconds_for_proxies`; rows that were not asked for have no seconds. -/
def earningOnlineSecondsForProxies (db : Db) (rows : List Proxy) (now : Timestamp)
    (healthStaleMinutes : Int) : Nat → Nat :=
  let stale := minutes (max 0 healthStaleMinutes)
  let merged := fun i => merge (ledgerIntervals db rows now i)
  let totals := fun i => if i ∈ rows.map Proxy.id then
    ((merged i).map fun s => wholeSeconds (s.2 - s.1)).sum else 0
  rows.foldl (fun totals row => Function.update totals row.id
    (row.projected now stale (merged row.id) (totals row.id))) totals

/-- The row is not passed over with a zero. -/
def Proxy.Projectable (row : Proxy) : Prop :=
  row.eligibility.Earning ∧ row.duplicateOf = none ∧ row.egressAttestationSource ≠ none ∧
    row.exitIp ≠ none

instance (row : Proxy) : Decidable row.Projectable := inferInstanceAs (Decidable (_ ∧ _))

/-! ## What is shown -/

/-- The ledger shows the row earning at the instant `t`. -/
def Db.Settled (db : Db) (row : Proxy) (now t : Timestamp) : Prop :=
  t < now ∧ ∃ payment ∈ db.payments row.id, payment.live ∧
    row.credentialStartedAt ≤ payment.startedAt ∧
    payment.startedAt ≤ t ∧ t < payment.endedAt

/-- The instant `t` is confirmed time behind everything that the ledger shows. -/
def Db.Unsettled (db : Db) (row : Proxy) (now : Timestamp) (stale : Int) (t : Timestamp) : Prop :=
  row.status.up ∧ (∀ t', db.Settled row now t' → t' < t) ∧ t < now ∧
    ∃ cursor ∈ row.accrualCursorAt, ∃ lastSuccess ∈ row.lastSuccessAt,
      ∃ onlineSince ∈ row.onlineSince,
      t < lastSuccess + stale ∧ cursor ≤ t ∧ onlineSince ≤ t ∧
        ∀ probation ∈ row.probationStartedAt, probation ≤ t

/-- The dashboard counts the instant `t` for the row. -/
def Db.Shown (db : Db) (row : Proxy) (now : Timestamp) (stale : Int) (t : Timestamp) : Prop :=
  db.Settled row now t ∨ db.Unsettled row now stale t

section Row

variable {db : Db} {rows : List Proxy} {row : Proxy} {now : Timestamp} {stale : Int}

theorem foldl_update_of_notMem {β : Type*} (g : Proxy → β → β) {i : Nat}
    (hi : ∀ r ∈ rows, r.id ≠ i) (totals : Nat → β) :
    rows.foldl (fun totals r => Function.update totals r.id (g r (totals r.id))) totals i =
      totals i := by
  induction rows generalizing totals with
  | nil => rfl
  | cons r rows ih =>
    rw [List.foldl_cons, ih fun r' hr' => hi r' (List.mem_cons_of_mem r hr')]
    exact Function.update_of_ne (hi r List.mem_cons_self).symm _ _

/-- A loop over rows with distinct ids leaves for each row what its own round has made. -/
theorem foldl_update_apply {β : Type*} (g : Proxy → β → β) (hk : Table.Keyed Proxy.id rows)
    (hr : row ∈ rows) (totals : Nat → β) :
    rows.foldl (fun totals r => Function.update totals r.id (g r (totals r.id))) totals row.id =
      g row (totals row.id) := by
  induction rows generalizing totals with
  | nil => cases hr
  | cons r rows ih =>
    obtain ⟨hfirst, hk⟩ := List.nodup_cons.mp hk
    rw [List.foldl_cons]
    rcases List.mem_cons.mp hr with rfl | hr
    · have hrest : ∀ r' ∈ rows, r'.id ≠ row.id := fun r' hr' hid =>
        hfirst (List.mem_map.mpr ⟨r', hr', hid⟩)
      rw [foldl_update_of_notMem g hrest, Function.update_self]
    · have hid : row.id ≠ r.id := fun hid => hfirst (List.mem_map.mpr ⟨row, hr, hid⟩)
      rw [ih hk hr, Function.update_of_ne hid]

theorem credentialStart?_eq (hk : Table.Keyed Proxy.id rows) (hr : row ∈ rows) :
    credentialStart? rows row.id = some row.credentialStartedAt := by
  have hreverse : Table.Keyed Proxy.id rows.reverse := by
    rw [Table.Keyed, List.map_reverse]
    exact List.nodup_reverse.mpr hk
  rw [credentialStart?, hreverse.lookup_eq (List.mem_reverse.mpr hr)]
  rfl

theorem earningOnlineSeconds_eq (hk : Table.Keyed Proxy.id rows) (hr : row ∈ rows) :
    earningOnlineSecondsForProxies db rows now stale row.id =
      row.projected now (minutes (max 0 stale)) (merge (ledgerIntervals db rows now row.id))
        ((merge (ledgerIntervals db rows now row.id)).map fun s =>
          wholeSeconds (s.2 - s.1)).sum := by
  unfold earningOnlineSecondsForProxies
  dsimp only
  rw [foldl_update_apply (fun r total => r.projected now (minutes (max 0 stale))
    (merge (ledgerIntervals db rows now r.id)) total) hk hr]
  rw [if_pos (List.mem_map_of_mem hr)]

theorem mem_ledgerIntervals (hk : Table.Keyed Proxy.id rows) (hr : row ∈ rows)
    {span : Timestamp × Timestamp} : span ∈ ledgerIntervals db rows now row.id ↔
      ∃ payment ∈ db.payments row.id, payment.live ∧ row.credentialStartedAt ≤ payment.startedAt ∧
        min now payment.startedAt < min now payment.endedAt ∧
        span = (min now payment.startedAt, min now payment.endedAt) := by
  have hbucket : ∀ b : Bucket, (b = .pending ∨ b = .available) ↔ b ≠ .expired := by
    intro b
    cases b <;> simp
  unfold ledgerIntervals
  rw [credentialStart?_eq hk hr]
  constructor
  · intro hspan
    obtain ⟨e, he, hbounded⟩ := List.mem_filterMap.mp hspan
    obtain ⟨hmem, hid, hlive⟩ : e ∈ db.ledger ∧ e.proxyId = row.id ∧ e.bucket ≠ .expired := by
      simpa [hbucket] using he
    refine ⟨e.payment, List.mem_map_of_mem (List.mem_filter.mpr ⟨hmem, decide_eq_true hid⟩),
      decide_eq_true hlive, ?_⟩
    unfold boundedInterval at hbounded
    dsimp only at hbounded
    split at hbounded
    · cases hbounded
    · next hold =>
      split at hbounded
      · cases hbounded
      · next hpositive =>
        have hstart : row.credentialStartedAt ≤ e.startedAt :=
          not_lt.mp fun hlt => hold ⟨_, rfl, hlt⟩
        exact ⟨hstart, not_le.mp hpositive, (Option.some.inj hbounded).symm⟩
  · rintro ⟨payment, hpayment, hlive, hstart, hpositive, rfl⟩
    obtain ⟨e, he, rfl⟩ := List.mem_map.mp hpayment
    obtain ⟨hmem, hid⟩ := List.mem_filter.mp he
    refine List.mem_filterMap.mpr ⟨e, ?_, ?_⟩
    · have hlive' : e.bucket ≠ .expired := of_decide_eq_true hlive
      simpa [hbucket, hlive', hmem] using hid
    · have hnew : ¬ ∃ start ∈ some row.credentialStartedAt, e.startedAt < start := by
        rintro ⟨start, hsome, hlt⟩
        obtain rfl := Option.mem_some.mp hsome
        exact absurd hlt (not_lt.mpr hstart)
      unfold boundedInterval
      rw [if_neg hnew]
      exact if_neg (not_le.mpr hpositive)

theorem ledgerIntervals_positive (db : Db) (now : Timestamp) (hk : Table.Keyed Proxy.id rows)
    (hr : row ∈ rows) : ∀ span ∈ ledgerIntervals db rows now row.id, span.1 < span.2 := by
  intro span hspan
  obtain ⟨payment, -, -, -, hpositive, rfl⟩ := (mem_ledgerIntervals hk hr).mp hspan
  exact hpositive

theorem covers_ledgerIntervals (hk : Table.Keyed Proxy.id rows) (hr : row ∈ rows) (t : Timestamp) :
    Covers (ledgerIntervals db rows now row.id) t ↔ db.Settled row now t := by
  constructor
  · rintro ⟨span, hspan, hfrom, hbelow⟩
    obtain ⟨payment, hpayment, hlive, hstart, hpositive, rfl⟩ :=
      (mem_ledgerIntervals hk hr).mp hspan
    obtain ⟨hnow, hend⟩ := lt_min_iff.mp hbelow
    have hstarted : payment.startedAt ≤ t := (min_le_iff.mp hfrom).resolve_left (not_le.mpr hnow)
    exact ⟨hnow, payment, hpayment, hlive, hstart, hstarted, hend⟩
  · rintro ⟨hnow, payment, hpayment, hlive, hstart, hfrom, hbelow⟩
    have hfrom' : min now payment.startedAt ≤ t := (min_le_right _ _).trans hfrom
    have hbelow' : t < min now payment.endedAt := lt_min hnow hbelow
    exact ⟨_, (mem_ledgerIntervals hk hr).mpr
      ⟨payment, hpayment, hlive, hstart, hfrom'.trans_lt hbelow', rfl⟩, hfrom', hbelow'⟩

/-- The confirmed time that is still to be settled comes after all that the ledger covers. -/
theorem unsettled_iff {merged : List (Timestamp × Timestamp)} (hmerged : Merged merged)
    (t : Timestamp) :
    (∃ span ∈ row.unsettled now stale (merged.head?.map Prod.snd), span.1 ≤ t ∧ t < span.2) ↔
      (∀ t', Covers merged t' → t' < t) ∧ t < now ∧
        ∃ cursor ∈ row.accrualCursorAt, ∃ lastSuccess ∈ row.lastSuccessAt,
          ∃ onlineSince ∈ row.onlineSince, t < lastSuccess + stale ∧ cursor ≤ t ∧ onlineSince ≤ t ∧
            ∀ probation ∈ row.probationStartedAt, probation ≤ t := by
  have hend : ∀ cursor, cursor ≤ t → ((merged.head?.map Prod.snd).getD cursor ≤ t ↔
      ∀ t', Covers merged t' → t' < t) := by
    intro cursor hcursor
    cases merged with
    | nil => simpa using hcursor
    | cons last rest =>
      constructor
      · intro hle t' ht'
        exact (hmerged.lt_last rfl ht').trans_le hle
      · intro hall
        -- the last instant of the last merged interval is covered
        have hpositive := hmerged.positive last List.mem_cons_self
        have hcovered : Covers (last :: rest) (last.2 - 1) :=
          ⟨last, List.mem_cons_self, Int.le_sub_one_of_lt hpositive, Int.sub_one_lt_of_le le_rfl⟩
        exact Int.le_of_sub_one_lt (hall _ hcovered)
  have hif : ∀ a b : Timestamp,
      (∃ span ∈ (if a < b then some (a, b) else none), span.1 ≤ t ∧ t < span.2) ↔
        a ≤ t ∧ t < b := by
    intro a b
    by_cases hab : a < b
    · simp [hab]
    · simp only [hab, if_false, Option.not_mem_none, false_and, exists_false, false_iff]
      rintro ⟨hfrom, hbelow⟩
      exact hab (hfrom.trans_lt hbelow)
  unfold Proxy.unsettled
  cases hcursor : row.accrualCursorAt with
  | none => simp
  | some cursor =>
    cases hsuccess : row.lastSuccessAt with
    | none => simp
    | some lastSuccess =>
      cases hsince : row.onlineSince with
      | none => simp
      | some onlineSince =>
        dsimp only
        cases hprobation : row.probationStartedAt with
        | none =>
          rw [hif, max_le_iff, max_le_iff, lt_min_iff]
          simp only [Option.mem_some, exists_eq_left']
          constructor
          · rintro ⟨⟨⟨hsince', hcursor'⟩, hledger⟩, hnow, hstale⟩
            exact ⟨(hend cursor hcursor').mp hledger, hnow, hstale, hcursor', hsince', by simp⟩
          · rintro ⟨hall, hnow, hstale, hcursor', hsince', -⟩
            exact ⟨⟨⟨hsince', hcursor'⟩, (hend cursor hcursor').mpr hall⟩, hnow, hstale⟩
        | some probation =>
          rw [hif, max_le_iff, max_le_iff, max_le_iff, lt_min_iff]
          simp only [Option.mem_some, exists_eq_left', forall_eq']
          constructor
          · rintro ⟨⟨⟨⟨hsince', hcursor'⟩, hledger⟩, hprobation'⟩, hnow, hstale⟩
            exact ⟨(hend cursor hcursor').mp hledger, hnow, hstale, hcursor', hsince', hprobation'⟩
          · rintro ⟨hall, hnow, hstale, hcursor', hsince', hprobation'⟩
            exact ⟨⟨⟨⟨hsince', hcursor'⟩, (hend cursor hcursor').mpr hall⟩, hprobation'⟩, hnow,
              hstale⟩

/-! ## Seconds -/

/-- A timestamp without a fraction of a second. -/
def Whole (t : Timestamp) : Prop := (1000000 : Int) ∣ t

instance (t : Timestamp) : Decidable (Whole t) := inferInstanceAs (Decidable (_ ∣ _))

theorem Whole.min {a b : Timestamp} (ha : Whole a) (hb : Whole b) : Whole (min a b) := by
  rcases min_choice a b with h | h
  · rwa [h]
  · rwa [h]

theorem Whole.max {a b : Timestamp} (ha : Whole a) (hb : Whole b) : Whole (max a b) := by
  rcases max_choice a b with h | h
  · rwa [h]
  · rwa [h]

/-- Whole seconds of an interval against its instants. -/
theorem wholeSeconds_card (span : Timestamp × Timestamp) :
    wholeSeconds (span.2 - span.1) * 1000000 ≤ (Finset.Ico span.1 span.2).card ∧
      (Finset.Ico span.1 span.2).card ≤ wholeSeconds (span.2 - span.1) * 1000000 + 999999 ∧
      (Whole span.1 → Whole span.2 →
        (Finset.Ico span.1 span.2).card = wholeSeconds (span.2 - span.1) * 1000000) := by
  unfold wholeSeconds Whole
  rw [Int.card_Ico]
  refine ⟨by omega, by omega, fun hstart hend => by omega⟩

theorem sum_wholeSeconds_card (spans : List (Timestamp × Timestamp)) :
    (spans.map fun s => wholeSeconds (s.2 - s.1)).sum * 1000000 ≤
        (spans.map fun s => (Finset.Ico s.1 s.2).card).sum ∧
      (spans.map fun s => (Finset.Ico s.1 s.2).card).sum ≤
        (spans.map fun s => wholeSeconds (s.2 - s.1)).sum * 1000000 + 999999 * spans.length ∧
      ((∀ s ∈ spans, Whole s.1 ∧ Whole s.2) → (spans.map fun s => (Finset.Ico s.1 s.2).card).sum =
        (spans.map fun s => wholeSeconds (s.2 - s.1)).sum * 1000000) := by
  induction spans with
  | nil => simp
  | cons span spans ih =>
    obtain ⟨hlow, hhigh, hwhole⟩ := ih
    obtain ⟨hlow', hhigh', hwhole'⟩ := wholeSeconds_card span
    simp only [List.map_cons, List.sum_cons, List.length_cons]
    refine ⟨?_, by linarith, fun hall => ?_⟩
    · rw [Nat.add_mul]
      exact Nat.add_le_add hlow' hlow
    · obtain ⟨⟨hstart, hend⟩, hrest⟩ := List.forall_mem_cons.mp hall
      rw [hwhole hrest, hwhole' hstart hend, Nat.add_mul]

/-- The timestamps of the row and of its entries have no fractions. -/
structure Db.WholeFor (db : Db) (row : Proxy) : Prop where
  payments : ∀ payment ∈ db.payments row.id, Whole payment.startedAt ∧ Whole payment.endedAt
  cursor : ∀ t ∈ row.accrualCursorAt, Whole t
  success : ∀ t ∈ row.lastSuccessAt, Whole t
  since : ∀ t ∈ row.onlineSince, Whole t
  probation : ∀ t ∈ row.probationStartedAt, Whole t

theorem ledgerIntervals_whole (hk : Table.Keyed Proxy.id rows) (hr : row ∈ rows)
    (hwhole : db.WholeFor row) (hnow : Whole now) :
    ∀ span ∈ merge (ledgerIntervals db rows now row.id), Whole span.1 ∧ Whole span.2 := by
  refine merge_ends fun span hspan => ?_
  obtain ⟨payment, hpayment, -, -, -, rfl⟩ := (mem_ledgerIntervals hk hr).mp hspan
  obtain ⟨hstart, hend⟩ := hwhole.payments payment hpayment
  exact ⟨hnow.min hstart, hnow.min hend⟩

theorem unsettled_whole {ledgerEnd : Option Timestamp} (hwhole : db.WholeFor row) (hnow : Whole now)
    (hstale : Whole stale) (hend : ∀ t ∈ ledgerEnd, Whole t) :
    ∀ span ∈ row.unsettled now stale ledgerEnd, Whole span.1 ∧ Whole span.2 := by
  intro span hspan
  unfold Proxy.unsettled at hspan
  split at hspan
  · next cursor lastSuccess onlineSince hcursor hsuccess hsince =>
    have hwcursor := hwhole.cursor cursor hcursor
    have hledger : Whole (ledgerEnd.getD cursor) := by
      cases ledgerEnd with
      | none => exact hwcursor
      | some t => exact hend t rfl
    have hstarted := ((hwhole.since onlineSince hsince).max hwcursor).max hledger
    have hsum : Whole (lastSuccess + stale) := dvd_add (hwhole.success lastSuccess hsuccess) hstale
    have hif : ∀ a b : Timestamp, span ∈ (if a < b then some (a, b) else none) → span = (a, b) := by
      intro a b h
      split at h
      · exact (Option.mem_some.mp h).symm
      · cases h
    dsimp only at hspan
    split at hspan
    · next probation hprobation =>
      rw [hif _ _ hspan]
      exact ⟨hstarted.max (hwhole.probation probation hprobation), hnow.min hsum⟩
    · rw [hif _ _ hspan]
      exact ⟨hstarted, hnow.min hsum⟩
  · cases hspan

/-- The interval of confirmed time that the row adds to what the ledger covers. -/
def Proxy.added (row : Proxy) (now : Timestamp) (stale : Int)
    (merged : List (Timestamp × Timestamp)) :
    List (Timestamp × Timestamp) :=
  if row.status.up then (row.unsettled now stale (merged.head?.map Prod.snd)).toList else []

theorem Proxy.projected_eq (h : row.Projectable) (merged : List (Timestamp × Timestamp))
    (total : Nat) : row.projected now stale merged total =
      total + ((row.added now stale merged).map fun s => wholeSeconds (s.2 - s.1)).sum := by
  obtain ⟨hearning, hcanonical, hsource, hexit⟩ := h
  unfold Proxy.projected Proxy.added
  rw [if_neg (not_not.mpr hearning), if_neg (not_not.mpr hcanonical),
    if_neg (not_or.mpr ⟨hsource, hexit⟩)]
  by_cases hup : row.status.up
  · rw [if_neg (not_not.mpr hup), if_pos hup]
    cases row.unsettled now stale (merged.head?.map Prod.snd) <;> simp
  · rw [if_pos hup, if_neg hup]
    simp

theorem Proxy.projected_of_not (h : ¬ row.Projectable) (merged : List (Timestamp × Timestamp))
    (total : Nat) : row.projected now stale merged total = 0 := by
  unfold Proxy.projected
  split
  · rfl
  next hearning =>
  split
  · rfl
  next hcanonical =>
  split
  · rfl
  next hexit =>
  obtain ⟨hsource, hexit⟩ := not_or.mp hexit
  exact absurd ⟨not_not.mp hearning, not_not.mp hcanonical, hsource, hexit⟩ h

theorem added_merged (row : Proxy) (now : Timestamp) (stale : Int)
    (merged : List (Timestamp × Timestamp)) : Merged (row.added now stale merged) := by
  have hif : ∀ a b : Timestamp, Merged (if a < b then some (a, b) else none).toList := by
    intro a b
    by_cases hab : a < b
    · simpa [hab] using Merged.singleton (s := (a, b)) hab
    · simpa [hab] using Merged.nil
  unfold Proxy.added Proxy.unsettled
  split
  · split
    · exact hif _ _
    · exact .nil
  · exact .nil

theorem covers_added {merged : List (Timestamp × Timestamp)} (hmerged : Merged merged)
    (hcovers : ∀ t, Covers merged t ↔ db.Settled row now t) (t : Timestamp) :
    Covers (row.added now stale merged) t ↔ db.Unsettled row now stale t := by
  unfold Proxy.added Db.Unsettled
  split
  · next hup =>
    simp only [hup, true_and, ← hcovers]
    rw [← unsettled_iff hmerged t]
    simp [Covers]
  · next hdown => simp [hdown]

/-- The seconds of a row that is not passed over, against the instants that are shown. -/
theorem Proxy.Projectable.counts (h : row.Projectable) (db : Db) (now : Timestamp)
    (hk : Table.Keyed Proxy.id rows) (hr : row ∈ rows) (healthStaleMinutes : Int) :
    ∃ settled unsettled : Finset Timestamp,
      (∀ t, t ∈ settled ↔ db.Settled row now t) ∧
      (∀ t, t ∈ unsettled ↔ db.Unsettled row now (minutes (max 0 healthStaleMinutes)) t) ∧
      earningOnlineSecondsForProxies db rows now healthStaleMinutes row.id * 1000000 ≤
        (settled ∪ unsettled).card ∧
      (settled ∪ unsettled).card ≤
        earningOnlineSecondsForProxies db rows now healthStaleMinutes row.id * 1000000 +
          999999 * ((firsts settled).card + (firsts unsettled).card) ∧
      (db.WholeFor row → Whole now → (settled ∪ unsettled).card =
        earningOnlineSecondsForProxies db rows now healthStaleMinutes row.id * 1000000) := by
  obtain ⟨hmerged, hcovers⟩ := merge_spec (ledgerIntervals_positive db now hk hr)
  have hsettled : ∀ t, Covers (merge (ledgerIntervals db rows now row.id)) t ↔
      db.Settled row now t := fun t => (hcovers t).trans (covers_ledgerIntervals hk hr t)
  have hends : db.WholeFor row → Whole now → ∀ s ∈ merge (ledgerIntervals db rows now row.id),
      Whole s.1 ∧ Whole s.2 := ledgerIntervals_whole hk hr
  rw [earningOnlineSeconds_eq hk hr]
  generalize merge (ledgerIntervals db rows now row.id) = merged at *
  rw [Proxy.projected_eq h]
  have hunsettled : ∀ t, Covers (row.added now (minutes (max 0 healthStaleMinutes)) merged) t ↔
      db.Unsettled row now (minutes (max 0 healthStaleMinutes)) t := covers_added hmerged hsettled
  have hadded := added_merged row now (minutes (max 0 healthStaleMinutes)) merged
  have haddedEnds : db.WholeFor row → Whole now →
      ∀ s ∈ row.added now (minutes (max 0 healthStaleMinutes)) merged, Whole s.1 ∧ Whole s.2 := by
    intro hwhole hnow s hs
    unfold Proxy.added at hs
    split at hs
    · refine unsettled_whole hwhole hnow ⟨_, Int.mul_comm _ _⟩ ?_ s (Option.mem_toList.mp hs)
      intro t ht
      obtain ⟨last, hlast, rfl⟩ := Option.map_eq_some_iff.mp ht
      exact (hends hwhole hnow last (List.mem_of_mem_head? hlast)).2
    · cases hs
  generalize row.added now (minutes (max 0 healthStaleMinutes)) merged = added at *
  -- what is not settled yet lies behind what is
  have hdisjoint : Disjoint (points merged) (points added) := by
    refine Finset.disjoint_left.mpr fun t ht ht' => ?_
    have hbehind := ((hunsettled t).mp (mem_points.mp ht')).2.1
    exact lt_irrefl t (hbehind t ((hsettled t).mp (mem_points.mp ht)))
  have hcard : (points merged ∪ points added).card =
      (merged.map fun s => (Finset.Ico s.1 s.2).card).sum +
        (added.map fun s => (Finset.Ico s.1 s.2).card).sum := by
    rw [Finset.card_union_of_disjoint hdisjoint, hmerged.card_points, hadded.card_points]
  obtain ⟨hlow, hhigh, hwhole⟩ := sum_wholeSeconds_card merged
  obtain ⟨hlow', hhigh', hwhole'⟩ := sum_wholeSeconds_card added
  refine ⟨points merged, points added, fun t => mem_points.trans (hsettled t),
    fun t => mem_points.trans (hunsettled t), ?_, ?_, fun hrow hnow => ?_⟩
  · rw [hcard, Nat.add_mul]
    exact Nat.add_le_add hlow hlow'
  · rw [hcard, hmerged.card_firsts, hadded.card_firsts]
    linarith
  · rw [hcard, hwhole (hends hrow hnow), hwhole' (haddedEnds hrow hnow), Nat.add_mul]

/-- What the dashboard shows of a row without fractions. -/
theorem Proxy.Projectable.shown (h : row.Projectable) (db : Db) (now : Timestamp)
    (hk : Table.Keyed Proxy.id rows) (hr : row ∈ rows) (healthStaleMinutes : Int) :
    ∃ shown : Finset Timestamp,
      (∀ t, t ∈ shown ↔ db.Shown row now (minutes (max 0 healthStaleMinutes)) t) ∧
      (db.WholeFor row → Whole now → shown.card =
        earningOnlineSecondsForProxies db rows now healthStaleMinutes row.id * 1000000) := by
  obtain ⟨settled, unsettled, hsettled, hunsettled, -, -, hcount⟩ :=
    h.counts db now hk hr healthStaleMinutes
  refine ⟨settled ∪ unsettled, fun t => ?_, hcount⟩
  rw [Finset.mem_union, hsettled, hunsettled]
  rfl

/-- The dashboard shows a row that is passed over no time at all. For every other row it counts the
instants that are shown, each once, and loses under a second for each interval that the ledger
covers without a gap and for the confirmed time behind it; without fractions it loses nothing. -/
theorem projection_counts (hk : Table.Keyed Proxy.id rows) (hr : row ∈ rows)
    (healthStaleMinutes : Int) :
    (¬ row.Projectable →
      earningOnlineSecondsForProxies db rows now healthStaleMinutes row.id = 0) ∧
    (row.Projectable → ∃ settled unsettled : Finset Timestamp,
      (∀ t, t ∈ settled ↔ db.Settled row now t) ∧
      (∀ t, t ∈ unsettled ↔ db.Unsettled row now (minutes (max 0 healthStaleMinutes)) t) ∧
      earningOnlineSecondsForProxies db rows now healthStaleMinutes row.id * 1000000 ≤
        (settled ∪ unsettled).card ∧
      (settled ∪ unsettled).card ≤
        earningOnlineSecondsForProxies db rows now healthStaleMinutes row.id * 1000000 +
          999999 * ((firsts settled).card + (firsts unsettled).card) ∧
      (db.WholeFor row → Whole now → (settled ∪ unsettled).card =
        earningOnlineSecondsForProxies db rows now healthStaleMinutes row.id * 1000000)) := by
  refine ⟨fun h => ?_, fun h => h.counts db now hk hr healthStaleMinutes⟩
  rw [earningOnlineSeconds_eq hk hr]
  exact Proxy.projected_of_not h _ _

end Row

/-! ## What an accrual does to it -/

section Accrual

variable {db db' : Db} {row row' : Proxy} {now cursor until_ : Timestamp}

/-- The pieces that an accrual records cover its span. -/
theorem covers_pieces {monthlyRate : Nat} {credentialStart t : Timestamp}
    (hforward : cursor < until_) (hcredential : credentialStart ≤ cursor) (hcursor : Whole cursor)
    (huntil : Whole until_) (hprobation : ∀ p ∈ row.probationStartedAt, Whole p) :
    (∃ payment ∈ (piecesOf row cursor until_).flatMap (paymentOf monthlyRate), payment.live ∧
      credentialStart ≤ payment.startedAt ∧ payment.startedAt ≤ t ∧ t < payment.endedAt) ↔
        cursor ≤ t ∧ t < until_ := by
  -- a piece without fractions is dropped only when it is empty
  have hpiece : ∀ a b : Timestamp, Whole a → Whole b → cursor ≤ a →
      ((∃ payment ∈ paymentOf monthlyRate (a, b), payment.live ∧
        credentialStart ≤ payment.startedAt ∧ payment.startedAt ≤ t ∧ t < payment.endedAt) ↔
          a ≤ t ∧ t < b) := by
    intro a b ha hb hle
    unfold paymentOf
    dsimp only
    split
    · next hzero =>
      have hempty : b ≤ a := by
        obtain ⟨x, rfl⟩ := ha
        obtain ⟨y, rfl⟩ := hb
        unfold wholeSeconds at hzero
        change 1000000 * y ≤ 1000000 * x
        omega
      simp only [List.not_mem_nil, false_and, exists_false, false_iff]
      rintro ⟨hfrom, hbelow⟩
      exact absurd (hfrom.trans_lt hbelow) (not_lt.mpr hempty)
    · simp only [List.mem_singleton, exists_eq_left, true_and]
      exact ⟨fun h => h.2, fun h => ⟨hcredential.trans hle, h⟩⟩
  have hunlock : Whole (row.probationStartedAt.getD cursor + hours probationHours) := by
    refine dvd_add ?_ ⟨_, Int.mul_comm _ _⟩
    cases hstart : row.probationStartedAt with
    | none => exact hcursor
    | some p => exact hprobation p hstart
  unfold piecesOf
  dsimp only
  rw [if_neg hforward.ne']
  generalize row.probationStartedAt.getD cursor + hours probationHours = unlockAt at hunlock ⊢
  split
  · next hcross =>
    simp only [List.flatMap_cons, List.flatMap_nil, List.append_nil, List.mem_append, or_and_right,
      exists_or]
    rw [hpiece _ _ hcursor hunlock le_rfl, hpiece _ _ hunlock huntil hcross.1.le]
    constructor
    · rintro (⟨hfrom, hbelow⟩ | ⟨hfrom, hbelow⟩)
      · exact ⟨hfrom, hbelow.trans_le hcross.2⟩
      · exact ⟨hcross.1.le.trans hfrom, hbelow⟩
    · rintro ⟨hfrom, hbelow⟩
      rcases lt_or_ge t unlockAt with hbefore | hafter
      · exact .inl ⟨hfrom, hbefore⟩
      · exact .inr ⟨hafter, hbelow⟩
  · rw [List.flatMap_cons, List.flatMap_nil, List.append_nil]
    exact hpiece _ _ hcursor huntil le_rfl

theorem pieces_whole {monthlyRate : Nat} (hcursor : Whole cursor) (huntil : Whole until_)
    (hprobation : ∀ p ∈ row.probationStartedAt, Whole p) :
    ∀ payment ∈ (piecesOf row cursor until_).flatMap (paymentOf monthlyRate),
      Whole payment.startedAt ∧ Whole payment.endedAt := by
  have hunlock : Whole (row.probationStartedAt.getD cursor + hours probationHours) := by
    refine dvd_add ?_ ⟨_, Int.mul_comm _ _⟩
    cases hstart : row.probationStartedAt with
    | none => exact hcursor
    | some p => exact hprobation p hstart
  have hpieces : ∀ span ∈ piecesOf row cursor until_, Whole span.1 ∧ Whole span.2 := by
    unfold piecesOf
    dsimp only
    split
    · exact fun span h => nomatch h
    split
    · simp [hcursor, huntil, hunlock]
    · simp [hcursor, huntil]
  intro payment hpayment
  obtain ⟨span, hspan, hpaid⟩ := List.mem_flatMap.mp hpayment
  unfold paymentOf at hpaid
  dsimp only at hpaid
  split at hpaid
  · cases hpaid
  · rw [List.mem_singleton.mp hpaid]
    exact hpieces span hspan

/-- The span of an accrual is settled, and nothing is left to be settled. -/
structure Accrued (db db' : Db) (row row' : Proxy) (now cursor until_ : Timestamp) (stale : Int) :
    Prop where
  settled : ∀ t, db'.Settled row' now t ↔ db.Settled row now t ∨ (cursor ≤ t ∧ t < until_)
  unsettled : ∀ t, ¬ db'.Unsettled row' now stale t
  whole : db'.WholeFor row'

theorem accrued_of_span {monthlyRate : Nat} {stale : Int}
    (hrow' : row' = { row with accrualCursorAt := some until_ })
    (hcredential : row.credentialStartedAt ≤ cursor) (hcursor : row.accrualCursorAt = some cursor)
    (hwhole : db.WholeFor row) (hnow : Whole now) (hstale : Whole stale)
    (hforward : cursor < until_)
    (hconfirmed : ∃ success ∈ row.lastSuccessAt, until_ = min now (success + stale))
    (hpayments : db'.payments row.id =
      db.payments row.id ++ (piecesOf row cursor until_).flatMap (paymentOf monthlyRate)) :
    Accrued db db' row row' now cursor until_ stale := by
  obtain ⟨success, hsuccess, huntil⟩ := hconfirmed
  have hwuntil : Whole until_ := by
    rw [huntil]
    exact hnow.min (dvd_add (hwhole.success success hsuccess) hstale)
  have hwcursor : Whole cursor := hwhole.cursor cursor hcursor
  have hle : until_ ≤ now := huntil ▸ min_le_left _ _
  subst hrow'
  refine ⟨fun t => ?_, fun t => ?_, ?_⟩
  · have hpieces := @covers_pieces row cursor until_ monthlyRate row.credentialStartedAt t hforward
      hcredential hwcursor hwuntil hwhole.probation
    unfold Db.Settled
    rw [hpayments]
    simp only [List.mem_append, or_and_right, exists_or, hpieces, and_or_left]
    refine or_congr_right ⟨fun h => h.2, fun h => ⟨h.2.trans_le hle, h⟩⟩
  · rintro ⟨-, -, hbelow, moved, hmoved, lastSuccess, hlast, since, -, hstale', hfrom, -⟩
    obtain rfl : until_ = moved := Option.some.inj hmoved
    obtain rfl : success = lastSuccess := Option.some.inj (hsuccess.symm.trans hlast)
    have hend : t < until_ := by
      rw [huntil]
      exact lt_min hbelow hstale'
    exact absurd hfrom (not_le.mpr hend)
  · refine ⟨?_, fun t ht => Option.some.inj ht ▸ hwuntil, hwhole.success, hwhole.since,
      hwhole.probation⟩
    change ∀ payment ∈ db'.payments row.id, _
    rw [hpayments]
    intro payment hpayment
    rcases List.mem_append.mp hpayment with hold | hnew
    · exact hwhole.payments payment hold
    · exact pieces_whole hwcursor hwuntil hwhole.probation payment hnew

/-- What is not settled yet of a row that is up lies in the span of the next accrual. -/
theorem unsettled_iff_span {stale : Int} {probation success : Timestamp} (hup : row.status.up)
    (hcursor : row.accrualCursorAt = some cursor)
    (hprobation : row.probationStartedAt = some probation)
    (hclocked : probation ≤ cursor) (hsuccess : success ∈ row.lastSuccessAt)
    (huntil : until_ = min now (success + stale)) (hpast : ∀ t, db.Settled row now t → t < cursor)
    (t : Timestamp) : db.Unsettled row now stale t ↔
      (cursor ≤ t ∧ t < until_) ∧ ∃ since ∈ row.onlineSince, since ≤ t := by
  constructor
  · rintro ⟨-, -, hbelow, c, hc, s, hs, since, hsince, hstale, hfrom, hup', -⟩
    obtain rfl : cursor = c := Option.some.inj (hcursor.symm.trans hc)
    obtain rfl : success = s := Option.some.inj (hsuccess.symm.trans hs)
    exact ⟨⟨hfrom, huntil ▸ lt_min hbelow hstale⟩, since, hsince, hup'⟩
  · rintro ⟨⟨hfrom, hend⟩, since, hsince, hup'⟩
    rw [huntil, lt_min_iff] at hend
    refine ⟨hup, fun t' ht' => (hpast t' ht').trans_le hfrom, hend.1, cursor, hcursor, success,
      hsuccess, since, hsince, hend.2, hfrom, hup', fun p hp => ?_⟩
    obtain rfl : probation = p := Option.some.inj (hprobation.symm.trans hp)
    exact hclocked.trans hfrom

/-- A span behind all that is settled is shown before it is accrued exactly when the uptime starts
no later. -/
theorem shown_of_span {shown shown' : Finset Timestamp} {settled : Timestamp → Prop}
    {online : Option Timestamp} (hforward : cursor < until_) (hpast : ∀ t, settled t → t < cursor)
    (hshown : ∀ t, t ∈ shown ↔
      settled t ∨ (cursor ≤ t ∧ t < until_) ∧ ∃ since ∈ online, since ≤ t)
    (hshown' : ∀ t, t ∈ shown' ↔ settled t ∨ (cursor ≤ t ∧ t < until_)) :
    shown ⊆ shown' ∧ (shown' = shown ↔ ∃ since ∈ online, since ≤ cursor) := by
  have hsubset : shown ⊆ shown' := fun t ht =>
    (hshown' t).mpr (((hshown t).mp ht).imp_right And.left)
  refine ⟨hsubset, fun hsame => ?_, ?_⟩
  · have hfirst : cursor ∈ shown := hsame ▸ (hshown' cursor).mpr (.inr ⟨le_rfl, hforward⟩)
    rcases (hshown cursor).mp hfirst with hold | hnew
    · exact absurd (hpast cursor hold) (lt_irrefl cursor)
    · exact hnew.2
  · rintro ⟨since, hsince, hle⟩
    refine Finset.Subset.antisymm (fun t ht => (hshown t).mpr ?_) hsubset
    refine ((hshown' t).mp ht).imp_right fun hin => ?_
    exact ⟨hin, since, hsince, hle.trans hin.1⟩

/-- Seconds that count two sets of instants, one inside the other. -/
theorem seconds_of_subset {shown shown' : Finset Timestamp} {before after : Nat}
    (hsubset : shown ⊆ shown') (hbefore : shown.card = before * 1000000)
    (hafter : shown'.card = after * 1000000) :
    before ≤ after ∧ (after = before ↔ shown' = shown) := by
  have hle := Finset.card_le_card hsubset
  refine ⟨by omega, fun heq => ?_, fun hsame => ?_⟩
  · exact (Finset.eq_of_subset_of_card_le hsubset (by omega)).symm
  · rw [hsame] at hafter
    omega

end Accrual

section Runs

variable {db₀ db db' : Db} {h : List (Event × Db)} {row row' : Proxy} {now : Timestamp}

/-- In every run whose resets come in order, an accrual of a row without fractions never lowers what
the dashboard shows of it, and leaves it as it was exactly when the cursor stays or the row was not
paid for time before it came online. -/
theorem projection_settled (hfresh : db₀.Fresh) (run : Runs db₀ h db) (horder : ResetsInOrder h)
    (hmem : row ∈ db.proxies) (hprojectable : row.Projectable) (hup : row.status.up)
    (hpayable : ∀ user ∈ db.user? row.userId, user.Payable)
    (hcredential : ∀ cursor ∈ row.accrualCursorAt, row.credentialStartedAt ≤ cursor)
    (hwhole : db.WholeFor row) (hnow : Whole now) (hok : accrueProxyTime db row.id now = .ok db')
    (hrow' : db'.proxy? row.id = some row') :
    let before := earningOnlineSecondsForProxies db [row] now (healthStaleMinutes db) row.id
    let after := earningOnlineSecondsForProxies db' [row'] now (healthStaleMinutes db) row.id
    before ≤ after ∧ (after = before ↔ row'.accrualCursorAt = row.accrualCursorAt ∨
      ∃ cursor ∈ row.accrualCursorAt, ∃ since ∈ row.onlineSince, since ≤ cursor) := by
  have hwf := run.wellFormed hfresh
  obtain ⟨probation, cursor, hprobation, hcursor, hclocked⟩ := hwf.clocked row hmem
  have hbehind : ∀ payment ∈ db.payments row.id, payment.endedAt ≤ cursor := by
    intro payment hpayment
    obtain ⟨e, he, rfl⟩ := List.mem_map.mp hpayment
    obtain ⟨hentry, hid⟩ := List.mem_filter.mp he
    have hproxy : row.id = e.proxyId := (of_decide_eq_true hid).symm
    exact (run.tiled hfresh horder).behind e hentry row hmem hproxy cursor hcursor
  have hpaid := accrueEligibleTimeLocked_paid hwf.keyed hmem hcursor hpayable hbehind hok
  -- the row differs in its cursor only
  have hvisits := (accrueProxyTime_does hwf.keyed row.id).of_ok hok
  obtain ⟨r, hr, hsame⟩ := hvisits.moved.origin (Table.mem_of_lookup hrow')
  have hid : row'.id = row.id := Table.key_of_lookup hrow'
  have hrow : row' = { row with accrualCursorAt := row'.accrualCursorAt } := by
    have heq : r = row := hwf.keyed.eq hr hmem (hsame.id.symm.trans hid)
    exact heq ▸ hsame
  have hmoved : db'.cursor? row.id = row'.accrualCursorAt := by
    rw [Db.cursor?, hrow']
    rfl
  have hfound : db.cursor? row.id = row.accrualCursorAt := by
    rw [Db.cursor?, Db.proxy?, hwf.keyed.lookup_eq hmem]
    rfl
  have hstale : minutes (max 0 (healthStaleMinutes db)) = minutes (healthStaleMinutes db) := by
    have : 0 ≤ healthStaleMinutes db := by unfold healthStaleMinutes; omega
    rw [max_eq_right this]
  have hone : ∀ r : Proxy, Table.Keyed Proxy.id [r] := fun r => List.nodup_singleton _
  have hprojectable' : row'.Projectable := by
    rw [hrow]
    exact hprojectable
  obtain ⟨shown, hshown, hcount⟩ :=
    hprojectable.shown db now (hone row) List.mem_cons_self (healthStaleMinutes db)
  obtain ⟨shown', hshown', hcount'⟩ :=
    hprojectable'.shown db' now (hone row') List.mem_cons_self (healthStaleMinutes db)
  rw [hid] at hcount'
  dsimp only
  cases hpaid with
  | nothing hunchanged =>
    have hcursor' : row'.accrualCursorAt = row.accrualCursorAt := by
      rw [← hmoved, hunchanged.cursor, hfound]
    obtain rfl : row' = row := by
      rw [hrow, hcursor']
    have hsettled : ∀ t, db'.Settled row' now t ↔ db.Settled row' now t := by
      intro t
      rw [Db.Settled, hunchanged.payments, Db.Settled]
    have hsame : shown' = shown := by
      ext t
      rw [hshown', hshown, Db.Shown, Db.Unsettled, Db.Shown, Db.Unsettled]
      simp only [hsettled]
    have hwhole' : db'.WholeFor row' :=
      ⟨hunchanged.payments ▸ hwhole.payments, hwhole.cursor, hwhole.success, hwhole.since,
        hwhole.probation⟩
    have hcards := hcount' hwhole' hnow
    rw [hsame, hcount hwhole hnow] at hcards
    have heq := Nat.eq_of_mul_eq_mul_right (by decide) hcards
    exact ⟨heq.le, iff_of_true heq.symm (.inl rfl)⟩
  | @span until_ hforward hconfirmed hspan hpayments =>
    have hcursor' : row'.accrualCursorAt = some until_ := hmoved.symm.trans hspan
    rw [hcursor'] at hrow
    have haccrued := accrued_of_span hrow (hcredential cursor hcursor) hcursor hwhole hnow
      ⟨_, Int.mul_comm _ _⟩ hforward hconfirmed hpayments
    obtain ⟨success, hsuccess, huntil⟩ := hconfirmed
    rw [hstale] at hshown hshown'
    -- what the ledger shows lies behind the cursor, so only the start of the uptime is in the way
    have hpast : ∀ t, db.Settled row now t → t < cursor := by
      rintro t ⟨-, payment, hpayment, -, -, -, hbelow⟩
      exact hbelow.trans_le (hbehind payment hpayment)
    have hshown₁ : ∀ t, t ∈ shown ↔ db.Settled row now t ∨
        (cursor ≤ t ∧ t < until_) ∧ ∃ since ∈ row.onlineSince, since ≤ t := by
      intro t
      rw [hshown, Db.Shown]
      rw [unsettled_iff_span hup hcursor hprobation hclocked hsuccess huntil hpast]
    have hshown₂ : ∀ t, t ∈ shown' ↔ db.Settled row now t ∨ (cursor ≤ t ∧ t < until_) := by
      intro t
      rw [hshown', Db.Shown, haccrued.settled]
      exact or_iff_left (haccrued.unsettled t)
    obtain ⟨hsubset, hsame⟩ := shown_of_span hforward hpast hshown₁ hshown₂
    obtain ⟨hle, hiff⟩ :=
      seconds_of_subset hsubset (hcount hwhole hnow) (hcount' haccrued.whole hnow)
    have hleaves : row'.accrualCursorAt ≠ row.accrualCursorAt := by
      rw [hcursor', hcursor]
      exact fun hstay => hforward.ne' (Option.some.inj hstay)
    refine ⟨hle, (hiff.trans hsame).trans ?_⟩
    rw [or_iff_right hleaves, hcursor]
    simp

end Runs

open Scenario in
/-- The ledger is still empty, and the time from the first allowed minute is confirmed. -/
theorem projection_counts_oweAnHour : ∃ row ∈ (after oneUser oweAnHour).proxies,
    ∃ settled unsettled : Finset Timestamp,
      (∀ t, t ∈ settled ↔ (after oneUser oweAnHour).Settled row (minutes 61) t) ∧
      (∀ t, t ∈ unsettled ↔
        (after oneUser oweAnHour).Unsettled row (minutes 61) (minutes 120) t) ∧
      (settled ∪ unsettled).card = 59 * 60 * 1000000 := by
  have hmem := List.head_mem (l := (after oneUser oweAnHour).proxies) (by decide)
  have hkeyed := ((runs oneUser oweAnHour).wellFormed oneUser_fresh).keyed
  have hcounts := (@projection_counts (after oneUser oweAnHour) _ _ (minutes 61) hkeyed hmem 120).2
  obtain ⟨settled, unsettled, hsettled, hunsettled, -, -, hcard⟩ := hcounts (by decide)
  have hwhole := hcard ⟨by decide, by decide, by decide, by decide, by decide⟩ (by decide)
  exact ⟨_, hmem, settled, unsettled, hsettled, hunsettled, hwhole.trans (by decide)⟩

open Scenario in
theorem projection_settled_oweAnHour :
    ∃ row ∈ (after oneUser oweAnHour).proxies,
      ∃ row' ∈ (after oneUser (oweAnHour ++ [minute 61 (.accrueProxyTime 1)])).proxies,
        earningOnlineSecondsForProxies
          (after oneUser (oweAnHour ++ [minute 61 (.accrueProxyTime 1)]))
          [row'] (minutes 61) 120 1 =
        earningOnlineSecondsForProxies (after oneUser oweAnHour) [row] (minutes 61) 120 1 := by
  have hmem := List.head_mem (l := (after oneUser oweAnHour).proxies) (by decide)
  have hmem' := List.head_mem
    (l := (after oneUser (oweAnHour ++ [minute 61 (.accrueProxyTime 1)])).proxies) (by decide)
  have hok : accrueProxyTime (after oneUser oweAnHour) 1 (minutes 61) =
      .ok (after oneUser (oweAnHour ++ [minute 61 (.accrueProxyTime 1)])) := rfl
  have hfound : (after oneUser (oweAnHour ++ [minute 61 (.accrueProxyTime 1)])).proxy? 1 =
      some ((after oneUser (oweAnHour ++ [minute 61 (.accrueProxyTime 1)])).proxies.head
        (by decide)) :=
    rfl
  have hsettled := projection_settled oneUser_fresh (runs oneUser oweAnHour) (by decide) hmem
    (by decide) (by decide) (by decide) (by decide)
    ⟨by decide, by decide, by decide, by decide, by decide⟩ (by decide) hok hfound
  exact ⟨_, hmem, _, hmem', hsettled.2.mpr (by decide)⟩

end EarnProxy
