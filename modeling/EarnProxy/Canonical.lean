import Mathlib.Data.Set.Insert
import EarnProxy.Library.Grouping
import EarnProxy.Invariants

/-!
# One canonical row per exit address

The rows that share a trusted exit address form a group, and each operation leaves every group with
one leader. The leader is canonical as long as it stays: only the maintenance archive takes a
leader away without an election, and then its duplicates keep pointing at it.
-/

namespace EarnProxy

open Transaction

/-- The group of a row: its exit address, while the row is kept and the address is trusted. -/
def Proxy.exitGroup? (r : Proxy) : Option IpAddress :=
  if r.archivedAt = none ∧ r.egressAttestationSource ≠ none then r.exitIp else none

theorem Proxy.exitGroup?_eq_some {r : Proxy} {exitIp : IpAddress} :
    r.exitGroup? = some exitIp ↔ r.InGroup exitIp := by
  simp only [Proxy.exitGroup?, Proxy.InGroup]
  split
  · rename_i h
    simp [h]
  · rename_i h
    simp only [reduceCtorEq, false_iff]
    exact fun hin => h hin.2

/-- The groups of proxies. A row leads the group of its exit address, also once it is archived. -/
def exits : Table.Grouping Proxy Nat IpAddress where
  key := Proxy.id
  pointer := Proxy.duplicateOf
  group := Proxy.exitGroup?
  home := Proxy.exitIp
  atHome := fun _ _ h => (Proxy.exitGroup?_eq_some.mp h).1

/-- The rows are grouped: every group is led, except the `loose` ones, which wait for an election.
With `heads`, no kept row points at an archived one. -/
structure Grouped (heads : Prop) (loose : Set IpAddress) (rows : List Proxy) : Prop where
  keyed : Table.Keyed Proxy.id rows
  led : ∀ g ∉ loose, exits.Led rows g
  attested : ∀ r ∈ rows, r.exitIp = none ↔ r.egressAttestationSource = none
  placed : ∀ r ∈ rows, r.archivedAt = none → r.duplicateOf ≠ none → r.exitIp ≠ none
  headed : heads → ∀ r ∈ rows, r.archivedAt = none → ∀ c ∈ r.duplicateOf,
    ∃ k ∈ rows, k.id = c ∧ k.archivedAt = none

/-- The columns that make up the groups are the same. -/
structure Proxy.SameGroup (r r' : Proxy) : Prop where
  id : r'.id = r.id
  exitIp : r'.exitIp = r.exitIp
  archivedAt : r'.archivedAt = r.archivedAt
  source : r'.egressAttestationSource = r.egressAttestationSource
  duplicateOf : r'.duplicateOf = r.duplicateOf

theorem Proxy.SameGroup.refl (r : Proxy) : r.SameGroup r := ⟨rfl, rfl, rfl, rfl, rfl⟩

theorem Proxy.SameGroup.group {r r' : Proxy} (h : r.SameGroup r') :
    r'.exitGroup? = r.exitGroup? := by
  unfold Proxy.exitGroup?
  rw [h.archivedAt, h.source, h.exitIp]

theorem Proxy.SameButCursor.sameGroup {r r' : Proxy} (h : r.SameButCursor r') : r.SameGroup r' := by
  rw [h]
  exact ⟨rfl, rfl, rfl, rfl, rfl⟩

theorem Proxy.SameVote.group {r r' : Proxy} (h : r.SameVote r') : r'.exitGroup? = r.exitGroup? := by
  unfold Proxy.exitGroup?
  rw [h.archivedAt, h.source, h.exitIp]

section Grouped

variable {heads : Prop} {loose : Set IpAddress} {rows : List Proxy} {φ : Proxy → Proxy}

theorem Grouped.map (h : Grouped heads loose rows) (hφ : ∀ r ∈ rows, r.SameGroup (φ r)) :
    Grouped heads loose (rows.map φ) where
  keyed := h.keyed.map fun r hr => (hφ r hr).id
  led := fun g hg => (h.led g hg).map (fun r hr => (hφ r hr).id)
    (fun r hr hgr => ⟨(hφ r hr).group.symm.trans hgr, (hφ r hr).duplicateOf⟩)
    fun r hr hhome => (hφ r hr).exitIp.trans hhome
  attested := by
    intro r' hr'
    obtain ⟨r, hr, rfl⟩ := List.mem_map.mp hr'
    rw [(hφ r hr).exitIp, (hφ r hr).source]
    exact h.attested r hr
  placed := by
    intro r' hr'
    obtain ⟨r, hr, rfl⟩ := List.mem_map.mp hr'
    rw [(hφ r hr).archivedAt, (hφ r hr).duplicateOf, (hφ r hr).exitIp]
    exact h.placed r hr
  headed := by
    intro hheads r' hr'
    obtain ⟨r, hr, rfl⟩ := List.mem_map.mp hr'
    rw [(hφ r hr).archivedAt, (hφ r hr).duplicateOf]
    intro hkept c hc
    obtain ⟨k, hk, hkc, hkkept⟩ := h.headed hheads r hr hkept c hc
    exact ⟨φ k, List.mem_map_of_mem hk, (hφ k hk).id.trans hkc, (hφ k hk).archivedAt.trans hkkept⟩

theorem Grouped.update (h : Grouped heads loose rows) {i : Nat} {f : Proxy → Proxy}
    (hf : ∀ r ∈ rows, r.id = i → r.SameGroup (f r)) :
    Grouped heads loose (Table.update (fun r => r.id = i) f rows) := by
  refine h.map fun r hr => ?_
  split
  · exact hf r hr ‹_›
  · exact .refl r

/-- A kept duplicate is a member of a group. -/
theorem Grouped.group_of_duplicate (h : Grouped heads loose rows) {r : Proxy} (hr : r ∈ rows)
    (hkept : r.archivedAt = none) (hdup : r.duplicateOf ≠ none) :
    ∃ g, r.exitIp = some g ∧ r.exitGroup? = some g := by
  obtain ⟨g, hg⟩ := Option.ne_none_iff_exists'.mp (h.placed r hr hkept hdup)
  have hsource : r.egressAttestationSource ≠ none :=
    fun hs => h.placed r hr hkept hdup ((h.attested r hr).mpr hs)
  exact ⟨g, hg, Proxy.exitGroup?_eq_some.mpr ⟨hg, hkept, hsource⟩⟩

/-! ## Elections -/

/-- An election settles its group. -/
theorem Grouped.canonicalized (h : Grouped heads loose rows) (exitIp : IpAddress) (prefer : Bool)
    (wall : Timestamp) :
    Grouped heads (loose \ {exitIp}) (canonicalizedRows rows exitIp prefer none wall) := by
  unfold canonicalizedRows
  cases hc : electedCanonical rows exitIp prefer none wall with
  | none =>
    refine ⟨h.keyed, fun g hg => ?_, h.attested, h.placed, h.headed⟩
    by_cases hloose : g ∈ loose
    · -- no candidate, so the group is empty
      obtain rfl : g = exitIp := by
        by_contra hne
        exact hg ⟨hloose, hne⟩
      rintro ⟨m, hm, hmg⟩
      have hin : m ∈ exitGroup rows g none :=
        mem_exitGroup.mpr ⟨hm, Proxy.exitGroup?_eq_some.mp hmg, nofun⟩
      obtain ⟨c, hc'⟩ := @electedCanonical_isSome _ _ prefer _ wall _ hin
      rw [hc] at hc'
      cases hc'
    · exact h.led g hloose
  | some c =>
    obtain ⟨hcr, hcg, _⟩ := mem_exitGroup.mp (electedCanonical_mem hc)
    have hvote := Proxy.rehomed_sameVote exitIp c.id none
    simp only [rehome_eq_map]
    refine ⟨h.keyed.map fun r _ => (hvote r).id, fun g hg => ?_, fun r' hr' => ?_,
      fun r' hr' hkept hdup => ?_, fun hheads r' hr' hkept c' hc' => ?_⟩
    · by_cases hgg : g = exitIp
      · subst hgg
        refine Table.Grouping.Led.of_election hcr (fun r _ => (hvote r).id)
          ((hvote c).exitIp.trans hcg.1) ?_
        intro r hr hgr
        have hin : r.InGroup g := Proxy.exitGroup?_eq_some.mp ((hvote r).group.symm.trans hgr)
        show (r.rehomed g c.id none).duplicateOf = if r.id = c.id then none else some c.id
        unfold Proxy.rehomed
        split
        · rfl
        · rw [if_pos ⟨hin, nofun⟩]
      · -- the winner and its duplicates belong to the group of the election
        refine (h.led g fun hloose => hg ⟨hloose, hgg⟩).map (fun r _ => (hvote r).id)
          (fun r hr hgr => ?_) fun r _ hhome => (hvote r).exitIp.trans hhome
        have hgr' : r.exitGroup? = some g := (hvote r).group.symm.trans hgr
        refine ⟨hgr', ?_⟩
        have hout : ¬ r.InGroup exitIp := by
          intro hin
          rw [Proxy.exitGroup?_eq_some.mpr hin] at hgr'
          exact hgg (Option.some.inj hgr').symm
        have hid : r.id ≠ c.id := fun hid => hout (h.keyed.eq hr hcr hid ▸ hcg)
        show (r.rehomed exitIp c.id none).duplicateOf = r.duplicateOf
        rw [Proxy.rehomed, if_neg hid, if_neg fun hin => hout hin.1]
    · obtain ⟨r, hr, rfl⟩ := List.mem_map.mp hr'
      rw [(hvote r).exitIp, (hvote r).source]
      exact h.attested r hr
    · obtain ⟨r, hr, rfl⟩ := List.mem_map.mp hr'
      rw [(hvote r).archivedAt] at hkept
      rw [(hvote r).exitIp]
      unfold Proxy.rehomed at hdup
      split at hdup
      · exact absurd rfl hdup
      · split at hdup
        · rename_i hin
          rw [hin.1.1]
          exact Option.some_ne_none _
        · exact h.placed r hr hkept hdup
    · obtain ⟨r, hr, rfl⟩ := List.mem_map.mp hr'
      rw [(hvote r).archivedAt] at hkept
      -- a row points at the winner or where it pointed before
      have hcases : c' = c.id ∨ c' ∈ r.duplicateOf := by
        unfold Proxy.rehomed at hc'
        split at hc'
        · cases hc'
        · split at hc'
          · exact .inl (Option.some.inj hc').symm
          · exact .inr hc'
      rcases hcases with rfl | hc'
      · exact ⟨_, List.mem_map_of_mem hcr, (hvote c).id, (hvote c).archivedAt.trans hcg.2.1⟩
      · obtain ⟨k, hk, hkc, hkkept⟩ := h.headed hheads r hr hkept c' hc'
        exact ⟨_, List.mem_map_of_mem hk, (hvote k).id.trans hkc,
          (hvote k).archivedAt.trans hkkept⟩

theorem Grouped.mono {loose' : Set IpAddress} (h : Grouped heads loose rows)
    (hsub : loose ⊆ loose') : Grouped heads loose' rows :=
  { h with led := fun g hg => h.led g fun hloose => hg (hsub hloose) }

/-- A row that moves to another address leaves two groups to elect. -/
theorem Grouped.moved (h : Grouped heads ∅ rows) {row : Proxy} (hrow : row ∈ rows)
    (exitIp : IpAddress) (source : AttestationSource) (wall : Timestamp) :
    Grouped heads {g | g = exitIp ∨ row.exitIp = some g}
      (Table.update (fun r => r.id = row.id) (fun r => r.reconciled exitIp source wall) rows) := by
  refine ⟨h.keyed.map fun r _ => by split <;> rfl, fun g hg => ?_, fun r' hr' => ?_,
    fun r' hr' hkept hdup => ?_, fun hheads r' hr' => ?_⟩
  · obtain ⟨hne, hprevious⟩ := not_or.mp hg
    refine (h.led g (Set.notMem_empty g)).map (fun r _ => by split <;> rfl) (fun r hr hgr => ?_)
      fun r hr hhome => ?_
    · split at hgr
      · exact absurd (Option.some.inj (Proxy.exitGroup?_eq_some.mp hgr).1).symm hne
      · rename_i hid
        rw [if_neg hid]
        exact ⟨hgr, rfl⟩
    · have hid : r.id ≠ row.id := by
        intro hid
        rw [h.keyed.eq hr hrow hid] at hhome
        exact hprevious hhome
      rw [if_neg hid]
      exact hhome
  · obtain ⟨r, hr, rfl⟩ := Table.mem_update.mp hr'
    split
    · simp [Proxy.reconciled]
    · exact h.attested r hr
  · obtain ⟨r, hr, rfl⟩ := Table.mem_update.mp hr'
    split
    · exact Option.some_ne_none _
    · rename_i hid
      rw [if_neg hid] at hkept hdup
      exact h.placed r hr hkept hdup
  · obtain ⟨r, hr, rfl⟩ := Table.mem_update.mp hr'
    have hsame : ∀ s : Proxy, ∀ t,
        t = (if s.id = row.id then s.reconciled exitIp source wall else s) →
        t.id = s.id ∧ t.archivedAt = s.archivedAt ∧ t.duplicateOf = s.duplicateOf := by
      rintro s t rfl
      split <;> exact ⟨rfl, rfl, rfl⟩
    rw [(hsame r _ rfl).2.1, (hsame r _ rfl).2.2]
    intro hkept c hc
    obtain ⟨k, hk, hkc, hkkept⟩ := h.headed hheads r hr hkept c hc
    exact ⟨_, List.mem_map_of_mem hk, (hsame k _ rfl).1.trans hkc,
      (hsame k _ rfl).2.1.trans hkkept⟩

/-- `reconcile_exit_ip` repairs both groups. -/
theorem Grouped.reconciled (h : Grouped heads ∅ rows) (i : Nat) (exitIp : IpAddress)
    (source : AttestationSource) (wall : Timestamp) :
    Grouped heads ∅ (reconciledRows rows i exitIp source wall) := by
  unfold reconciledRows
  cases hprevious : keptProxy? rows i with
  | none => exact h
  | some previous =>
    obtain ⟨hrow, rfl, _⟩ := keptProxy?_mem hprevious
    have hfirst := (h.moved hrow exitIp source wall).canonicalized exitIp
      previous.egressVerifiedAt.isSome wall
    cases hexit : previous.exitIp with
    | none =>
      simp only [hexit]
      refine hfirst.mono ?_
      rintro g ⟨rfl | hg, hne⟩
      · exact absurd rfl hne
      · rw [hexit] at hg
        cases hg
    | some previousExit =>
      simp only [hexit]
      split
      · rename_i heq
        refine hfirst.mono ?_
        rintro g ⟨rfl | hg, hne⟩
        · exact absurd rfl hne
        · rw [hexit] at hg
          exact absurd ((Option.some.inj hg).symm.trans heq) hne
      · refine (hfirst.canonicalized previousExit false wall).mono ?_
        rintro g ⟨⟨rfl | hg, hne⟩, hne'⟩
        · exact absurd rfl hne
        · rw [hexit] at hg
          exact absurd (Option.some.inj hg).symm hne'

/-! ## Rows that leave -/

/-- What an election without `row` does to the rows: the rest of the row's group has one leader,
and rows outside the group keep their pointers. -/
structure Vacates (rows : List Proxy) (row : Proxy) (ψ : Proxy → Proxy) : Prop where
  vote : ∀ r : Proxy, r.SameVote (ψ r)
  outside : ∀ r ∈ rows, (∀ exitIp ∈ row.exitIp, ¬ r.InGroup exitIp) →
    (ψ r).duplicateOf = r.duplicateOf
  elected : ∀ exitIp ∈ row.exitIp, (∃ m ∈ rows, m.id ≠ row.id ∧ m.InGroup exitIp) →
    ∃ w ∈ rows, w.id ≠ row.id ∧ w.InGroup exitIp ∧ ∀ r ∈ rows, r.id ≠ row.id →
      r.InGroup exitIp → (ψ r).duplicateOf = if r.id = w.id then none else some w.id

/-- The rows after the election that a leaving row causes. -/
def vacatedRows (rows : List Proxy) (row : Proxy) (wall : Timestamp) : List Proxy :=
  match row.exitIp with
  | some exitIp => canonicalizedRows rows exitIp false (some row.id) wall
  | none => rows

theorem vacatedRows_eq_map (hk : Table.Keyed Proxy.id rows) (row : Proxy) (wall : Timestamp) :
    ∃ ψ, vacatedRows rows row wall = rows.map ψ ∧ Vacates rows row ψ := by
  have hstay : ∀ r : Proxy, r.SameVote (id r) := fun r => ⟨rfl, rfl, rfl, rfl, rfl, rfl, rfl, rfl⟩
  unfold vacatedRows
  cases hexit : row.exitIp with
  | none =>
    refine ⟨id, by simp, hstay, fun _ _ _ => rfl, fun exitIp h => ?_⟩
    rw [hexit] at h
    cases h
  | some exitIp =>
    simp only [canonicalizedRows]
    cases hc : electedCanonical rows exitIp false (some row.id) wall with
    | none =>
      refine ⟨id, by simp, hstay, fun _ _ _ => rfl, fun exitIp' h => ?_⟩
      rintro ⟨m, hm, hne, hin⟩
      obtain rfl : exitIp = exitIp' := Option.some.inj (hexit.symm.trans h)
      have hmem : m ∈ exitGroup rows exitIp (some row.id) :=
        mem_exitGroup.mpr ⟨hm, hin, fun i hi => Option.some.inj hi ▸ hne⟩
      obtain ⟨c, hc'⟩ := @electedCanonical_isSome _ _ false _ wall _ hmem
      rw [hc] at hc'
      cases hc'
    | some c =>
      obtain ⟨hcr, hcg, hcne⟩ := mem_exitGroup.mp (electedCanonical_mem hc)
      refine ⟨_, rehome_eq_map rows exitIp c.id (some row.id), Proxy.rehomed_sameVote _ _ _,
        fun r hr hout => ?_, fun exitIp' h _ => ?_⟩
      · have hout' : ¬ r.InGroup exitIp := hout exitIp hexit
        have hid : r.id ≠ c.id := fun hid => hout' (hk.eq hr hcr hid ▸ hcg)
        rw [Proxy.rehomed, if_neg hid, if_neg fun hin => hout' hin.1]
      · obtain rfl : exitIp = exitIp' := Option.some.inj (hexit.symm.trans h)
        refine ⟨c, hcr, hcne row.id rfl, hcg, fun r hr hne hin => ?_⟩
        unfold Proxy.rehomed
        split
        · rfl
        · rw [if_pos ⟨hin, fun i hi => Option.some.inj hi ▸ hne⟩]

/-- A rewriting that takes a row out of every group. -/
structure Leaves (f : Proxy → Proxy) : Prop where
  id : ∀ r, (f r).id = r.id
  group : ∀ r, (f r).exitGroup? = none
  attested : ∀ r : Proxy, (r.exitIp = none ↔ r.egressAttestationSource = none) →
    ((f r).exitIp = none ↔ (f r).egressAttestationSource = none)
  single : ∀ r, (f r).archivedAt = none → (f r).duplicateOf = none

theorem replaced_leaves (parsed : ParsedProxy) (current : Timestamp) :
    Leaves fun r => r.replaced parsed current where
  id := fun _ => rfl
  group := fun r => by simp [Proxy.exitGroup?, Proxy.replaced]
  attested := fun r _ => by simp [Proxy.replaced]
  single := fun _ _ => rfl

theorem archived_leaves (current : Timestamp) : Leaves fun r => r.archived current where
  id := fun _ => rfl
  group := fun r => by simp [Proxy.exitGroup?, Proxy.archived]
  attested := fun _ h => h
  single := fun _ h => nomatch h

/-- What becomes of a row when `row` leaves: `ψ` for the election, and `f` for the row itself. -/
def leaving (row : Proxy) (ψ f : Proxy → Proxy) (r : Proxy) : Proxy :=
  if (ψ r).id = row.id then f (ψ r) else ψ r

section Leaving

variable {row r : Proxy} {ψ f : Proxy → Proxy} {g : IpAddress}

theorem leaving_self (hψ : Vacates rows row ψ) (hid : r.id = row.id) :
    leaving row ψ f r = f (ψ r) :=
  if_pos (((hψ.vote _).id).trans hid)

theorem leaving_other (hψ : Vacates rows row ψ) (hid : r.id ≠ row.id) : leaving row ψ f r = ψ r :=
  if_neg fun hid' => hid ((hψ.vote _).id.symm.trans hid')

theorem leaving_id (hψ : Vacates rows row ψ) (hf : Leaves f) (r : Proxy) :
    (leaving row ψ f r).id = r.id := by
  by_cases hr : r.id = row.id
  · rw [leaving_self hψ hr, hf.id, (hψ.vote r).id]
  · rw [leaving_other hψ hr, (hψ.vote r).id]

/-- A member of a group was in it before, and is another row. -/
theorem leaving_member (hψ : Vacates rows row ψ) (hf : Leaves f)
    (hg : (leaving row ψ f r).exitGroup? = some g) : r.id ≠ row.id ∧ r.exitGroup? = some g := by
  have hne : r.id ≠ row.id := by
    intro hr
    rw [leaving_self hψ hr, hf.group] at hg
    cases hg
  rw [leaving_other hψ hne, (hψ.vote r).group] at hg
  exact ⟨hne, hg⟩

/-- The group of the address that the row has elects a new leader. -/
theorem led_leaving_elected (hψ : Vacates rows row ψ) (hf : Leaves f)
    (hexit : row.exitIp = some g) : exits.Led (rows.map (leaving row ψ f)) g := by
  rintro ⟨m', hm', hmg⟩
  obtain ⟨m, hm, rfl⟩ := List.mem_map.mp hm'
  obtain ⟨hmne, hmg'⟩ := leaving_member hψ hf hmg
  obtain ⟨w, hw, hwne, hwg, hpointer⟩ :=
    hψ.elected g hexit ⟨m, hm, hmne, Proxy.exitGroup?_eq_some.mp hmg'⟩
  refine Table.Grouping.Led.of_election hw (fun r _ => leaving_id hψ hf r) ?_ (fun r hr hgr => ?_)
    ⟨_, hm', hmg⟩
  · show (leaving row ψ f w).exitIp = some g
    rw [leaving_other hψ hwne, (hψ.vote w).exitIp, hwg.1]
  · obtain ⟨hne, hgr'⟩ := leaving_member hψ hf hgr
    show (leaving row ψ f r).duplicateOf = _
    rw [leaving_other hψ hne]
    exact hpointer r hr hne (Proxy.exitGroup?_eq_some.mp hgr')

/-- The other groups keep their leaders. -/
theorem Grouped.led_leaving_kept (h : Grouped heads ∅ rows) (hrow : row ∈ rows)
    (hψ : Vacates rows row ψ) (hf : Leaves f) (hexit : row.exitIp ≠ some g) :
    exits.Led (rows.map (leaving row ψ f)) g := by
  refine (h.led g (Set.notMem_empty g)).map (fun r _ => leaving_id hψ hf r) (fun r hr hgr => ?_)
    fun r hr hhome => ?_
  · obtain ⟨hne, hgr'⟩ := leaving_member hψ hf hgr
    refine ⟨hgr', ?_⟩
    show (leaving row ψ f r).duplicateOf = r.duplicateOf
    rw [leaving_other hψ hne]
    refine hψ.outside r hr fun exitIp hexitIp hin => hexit ?_
    rw [Proxy.exitGroup?_eq_some.mpr hin] at hgr'
    exact Option.some.inj hgr' ▸ hexitIp
  · have hne : r.id ≠ row.id := by
      intro hr'
      rw [h.keyed.eq hr hrow hr'] at hhome
      exact hexit hhome
    show (leaving row ψ f r).exitIp = some g
    rw [leaving_other hψ hne, (hψ.vote r).exitIp]
    exact hhome

theorem Grouped.attested_leaving (h : Grouped heads ∅ rows) (hψ : Vacates rows row ψ)
    (hf : Leaves f) (hr : r ∈ rows) : (leaving row ψ f r).exitIp = none ↔
      (leaving row ψ f r).egressAttestationSource = none := by
  have hattested : (ψ r).exitIp = none ↔ (ψ r).egressAttestationSource = none := by
    rw [(hψ.vote r).exitIp, (hψ.vote r).source]
    exact h.attested r hr
  by_cases hne : r.id = row.id
  · rw [leaving_self hψ hne]
    exact hf.attested _ hattested
  · rw [leaving_other hψ hne]
    exact hattested

theorem Grouped.placed_leaving (h : Grouped heads ∅ rows) (hψ : Vacates rows row ψ)
    (hf : Leaves f) (hr : r ∈ rows) (hkept : (leaving row ψ f r).archivedAt = none)
    (hdup : (leaving row ψ f r).duplicateOf ≠ none) : (leaving row ψ f r).exitIp ≠ none := by
  by_cases hne : r.id = row.id
  · rw [leaving_self hψ hne] at hkept hdup
    exact absurd (hf.single _ hkept) hdup
  · rw [leaving_other hψ hne] at hkept hdup ⊢
    rw [(hψ.vote r).archivedAt] at hkept
    rw [(hψ.vote r).exitIp]
    by_cases hin : ∃ exitIp ∈ row.exitIp, r.InGroup exitIp
    · obtain ⟨exitIp, _, hin⟩ := hin
      rw [hin.1]
      exact Option.some_ne_none _
    · rw [hψ.outside r hr fun exitIp hexitIp hr => hin ⟨exitIp, hexitIp, hr⟩] at hdup
      exact h.placed r hr hkept hdup

/-- A row that points at the leaving one is in its group. -/
theorem Grouped.inGroup_of_pointer (h : Grouped heads ∅ rows) (hrow : row ∈ rows) (hr : r ∈ rows)
    (hkept : r.archivedAt = none) (hc : r.duplicateOf = some row.id) :
    ∃ exitIp ∈ row.exitIp, r.InGroup exitIp := by
  have hdup : r.duplicateOf ≠ none := by
    rw [hc]
    exact Option.some_ne_none _
  obtain ⟨g, _, hgr⟩ := h.group_of_duplicate hr hkept hdup
  obtain ⟨hleads, _⟩ := (h.led g (Set.notMem_empty g)).of_pointer hr hgr hc
  obtain ⟨leader, hleader, hlid, hlg⟩ := hleads.home
  obtain rfl : leader = row := h.keyed.eq hleader hrow hlid
  exact ⟨g, hlg, Proxy.exitGroup?_eq_some.mp hgr⟩

theorem Grouped.headed_leaving (h : Grouped heads ∅ rows) (hheads : heads) (hrow : row ∈ rows)
    (hψ : Vacates rows row ψ) (hf : Leaves f) (hr : r ∈ rows)
    (hkept : (leaving row ψ f r).archivedAt = none) {c : Nat}
    (hc : c ∈ (leaving row ψ f r).duplicateOf) :
    ∃ k ∈ rows.map (leaving row ψ f), k.id = c ∧ k.archivedAt = none := by
  have hne : r.id ≠ row.id := by
    intro hne
    rw [leaving_self hψ hne] at hkept hc
    rw [hf.single _ hkept] at hc
    cases hc
  rw [leaving_other hψ hne] at hkept hc
  rw [(hψ.vote r).archivedAt] at hkept
  -- a kept row other than the leaving one stands in the new table
  have hstands : ∀ k ∈ rows, k.id ≠ row.id → k.archivedAt = none →
      ∃ k' ∈ rows.map (leaving row ψ f), k'.id = k.id ∧ k'.archivedAt = none := by
    intro k hk hkne hkkept
    refine ⟨leaving row ψ f k, List.mem_map_of_mem hk, leaving_id hψ hf k, ?_⟩
    rw [leaving_other hψ hkne, (hψ.vote k).archivedAt, hkkept]
  by_cases hin : ∃ exitIp ∈ row.exitIp, r.InGroup exitIp
  · obtain ⟨exitIp, hexit, hin⟩ := hin
    obtain ⟨w, hw, hwne, hwg, hpointer⟩ := hψ.elected exitIp hexit ⟨r, hr, hne, hin⟩
    rw [hpointer r hr hne hin] at hc
    split at hc
    · cases hc
    · obtain rfl := Option.some.inj hc
      exact hstands w hw hwne hwg.2.1
  · rw [hψ.outside r hr fun exitIp hexit hr => hin ⟨exitIp, hexit, hr⟩] at hc
    obtain ⟨k, hk, rfl, hkkept⟩ := h.headed hheads r hr hkept c hc
    refine hstands k hk (fun hkid => hin ?_) hkkept
    exact h.inGroup_of_pointer hrow hr hkept (hkid ▸ hc)

/-- A row leaves after the election that its leaving causes. -/
theorem Grouped.left (h : Grouped heads ∅ rows) (hrow : row ∈ rows) (hψ : Vacates rows row ψ)
    (hf : Leaves f) :
    Grouped heads ∅ (Table.update (fun r => r.id = row.id) f (rows.map ψ)) := by
  have hrows : Table.update (fun r => r.id = row.id) f (rows.map ψ) =
      rows.map (leaving row ψ f) := by
    rw [Table.update, List.map_map]
    rfl
  rw [hrows]
  refine ⟨h.keyed.map fun r _ => leaving_id hψ hf r, fun g _ => ?_, fun r' hr' => ?_,
    fun r' hr' hkept hdup => ?_, fun hheads r' hr' hkept c hc => ?_⟩
  · by_cases hexit : row.exitIp = some g
    · exact led_leaving_elected hψ hf hexit
    · exact h.led_leaving_kept hrow hψ hf hexit
  · obtain ⟨r, hr, rfl⟩ := List.mem_map.mp hr'
    exact h.attested_leaving hψ hf hr
  · obtain ⟨r, hr, rfl⟩ := List.mem_map.mp hr'
    exact h.placed_leaving hψ hf hr hkept hdup
  · obtain ⟨r, hr, rfl⟩ := List.mem_map.mp hr'
    exact h.headed_leaving hheads hrow hψ hf hr hkept hc

end Leaving

/-! ## Promotions -/

theorem Proxy.promoted_fixes (canonicalId promotedId : Nat) :
    exits.Fixes (Proxy.promoted canonicalId promotedId) := by
  have hsame : ∀ r : Proxy, (r.promoted canonicalId promotedId).id = r.id ∧
      (r.promoted canonicalId promotedId).exitGroup? = r.exitGroup? ∧
      (r.promoted canonicalId promotedId).exitIp = r.exitIp := by
    intro r
    unfold Proxy.promoted
    split_ifs <;> exact ⟨rfl, rfl, rfl⟩
  exact ⟨fun r => (hsame r).1, fun r => (hsame r).2.1, fun r => (hsame r).2.2⟩

theorem Proxy.promoted_duplicateOf (canonicalId promotedId : Nat) (r : Proxy) :
    (r.promoted canonicalId promotedId).duplicateOf =
      if r.id = promotedId then none
      else if r.id = canonicalId ∨ r.duplicateOf = some canonicalId then some promotedId
      else r.duplicateOf := by
  unfold Proxy.promoted
  split_ifs <;> rfl

theorem Grouped.promoted (h : Grouped heads ∅ rows) {i : Nat} {q : Proxy} (hq : q ∈ rows)
    (hpromotable : q.Promotable i) :
    Grouped heads ∅ (rows.map (Proxy.promoted i q.id)) := by
  have hfixes := Proxy.promoted_fixes i q.id
  have hcolumns : ∀ r : Proxy, (r.promoted i q.id).archivedAt = r.archivedAt ∧
      (r.promoted i q.id).egressAttestationSource = r.egressAttestationSource := by
    intro r
    unfold Proxy.promoted
    split_ifs <;> exact ⟨rfl, rfl⟩
  obtain ⟨hqc, _, hqkept⟩ := hpromotable
  obtain ⟨g, hqg, hqgroup⟩ :=
    h.group_of_duplicate hq hqkept fun hnone => by rw [hnone] at hqc; cases hqc
  refine ⟨h.keyed.map fun r _ => hfixes.key r, fun g' _ => ?_, fun r' hr' => ?_,
    fun r' hr' hkept hdup => ?_, fun hheads r' hr' hkept c' hc' => ?_⟩
  · exact Table.Grouping.Led.handOver hfixes h.keyed (fun g => h.led g (Set.notMem_empty g)) hq
      hqgroup hqc (fun r _ => Proxy.promoted_duplicateOf i q.id r) g'
  · obtain ⟨r, hr, rfl⟩ := List.mem_map.mp hr'
    rw [(hcolumns r).2, show (r.promoted i q.id).exitIp = r.exitIp from hfixes.home r]
    exact h.attested r hr
  · obtain ⟨r, hr, rfl⟩ := List.mem_map.mp hr'
    rw [show (r.promoted i q.id).exitIp = r.exitIp from hfixes.home r]
    rw [(hcolumns r).1] at hkept
    rw [Proxy.promoted_duplicateOf] at hdup
    split at hdup
    · exact absurd rfl hdup
    · split at hdup
      · rename_i hcanonical
        rcases hcanonical with hrc | hrc
        · -- the demoted row has the address of its group
          obtain ⟨hleads, _⟩ := (h.led g (Set.notMem_empty g)).of_pointer hq hqgroup hqc
          obtain ⟨leader, hleader, hlid, hlg⟩ := hleads.home
          obtain rfl : leader = r :=
            h.keyed.eq hleader hr ((show leader.id = i from hlid).trans hrc.symm)
          rw [show leader.exitIp = some g from hlg]
          exact Option.some_ne_none g
        · exact h.placed r hr hkept fun hnone => by rw [hnone] at hrc; cases hrc
      · exact h.placed r hr hkept hdup
  · obtain ⟨r, hr, rfl⟩ := List.mem_map.mp hr'
    rw [(hcolumns r).1] at hkept
    rw [Proxy.promoted_duplicateOf] at hc'
    split at hc'
    · cases hc'
    · split at hc'
      · obtain rfl := Option.some.inj hc'
        exact ⟨_, List.mem_map_of_mem hq, hfixes.key q, (hcolumns q).1.trans hqkept⟩
      · obtain ⟨k, hk, hkc, hkkept⟩ := h.headed hheads r hr hkept c' hc'
        exact ⟨_, List.mem_map_of_mem hk, (show _ = k.id from hfixes.key k).trans hkc,
          (hcolumns k).1.trans hkkept⟩

/-- The rows after `promote_duplicate_if_due`: as they were, when nothing is due or nothing can be
promoted, or with a promoted duplicate. -/
theorem promoteDuplicateIfDue_rows {db db' : Db} (hk : Table.Keyed Proxy.id db.proxies) {i : Nat}
    {now : Timestamp} {promoted : Option Nat}
    (h : promoteDuplicateIfDue db i now = .ok (db', promoted)) :
    (db'.proxies = db.proxies ∧ ∀ c ∈ db.proxies, c.id = i → c.PromotionDue now →
      ∀ q ∈ db.proxies, ¬ q.Promotable i) ∨
    ∃ c ∈ db.proxies, ∃ q ∈ db.proxies, c.id = i ∧ c.PromotionDue now ∧ q.Promotable i ∧
      db'.proxies = Table.update (fun r => r.id = q.id) (fun r => r.restart now)
        (db.proxies.map (Proxy.promoted i q.id)) := by
  unfold promoteDuplicateIfDue at h
  cases hlookup : db.proxy? i with
  | none =>
    rw [hlookup] at h
    obtain rfl := (Prod.mk.inj (Except.ok.inj h)).1
    exact .inl ⟨rfl, fun c hc hid => absurd hid (Table.lookup_eq_none.mp hlookup c hc)⟩
  | some c =>
    have hc := Table.mem_of_lookup hlookup
    have hid : c.id = i := Table.key_of_lookup hlookup
    simp only [hlookup] at h
    split at h
    · rename_i hdue
      obtain rfl := (Prod.mk.inj (Except.ok.inj h)).1
      refine .inl ⟨rfl, fun c' hc' hid' hdue' => absurd ?_ hdue⟩
      rwa [hk.eq hc hc' (hid.trans hid'.symm)]
    · rename_i hdue
      cases hcandidate : promotionCandidate db.proxies i with
      | none =>
        simp only [hcandidate] at h
        obtain rfl := (Prod.mk.inj (Except.ok.inj h)).1
        refine .inl ⟨rfl, fun _ _ _ _ q hq hpromotable => ?_⟩
        have hempty := List.argmin_eq_none.mp hcandidate
        have hmem : q ∈ db.proxies.filter fun r => r.Promotable i :=
          List.mem_filter.mpr ⟨hq, decide_eq_true hpromotable⟩
        rw [hempty] at hmem
        cases hmem
      | some q =>
        simp only [hcandidate] at h
        obtain ⟨hq, hpromotable⟩ := promotionCandidate_mem hcandidate
        have hne : q.id ≠ i := by
          rw [← hid] at hcandidate ⊢
          exact promotionCandidate_ne hk hc (not_not.mp hdue) hcandidate
        obtain ⟨expired, hexpired, h⟩ := ok_of_bind h
        obtain ⟨restarted, hrestarted, h⟩ := ok_of_bind h
        obtain rfl := (Prod.mk.inj (Except.ok.inj h)).1
        refine .inr ⟨c, hc, q, hq, hid, not_not.mp hdue, hpromotable, ?_⟩
        rw [resetProbation_ok hrestarted, expirePendingCycle_ok hexpired]
        simp only [promoteRows_eq_map hne]

theorem promoteDuplicateIfDue_grouped {db db' : Db} {i : Nat} {now : Timestamp}
    {promoted : Option Nat} (h : Grouped heads ∅ db.proxies)
    (hok : promoteDuplicateIfDue db i now = .ok (db', promoted)) : Grouped heads ∅ db'.proxies := by
  rcases promoteDuplicateIfDue_rows h.keyed hok with
      ⟨hrows, _⟩ | ⟨_, _, q, hq, _, _, hpromotable, hrows⟩
  · exact hrows ▸ h
  · rw [hrows]
    exact (h.promoted hq hpromotable).update fun r _ _ => ⟨rfl, rfl, rfl, rfl, rfl⟩

/-! ## The maintenance archive -/

/-- A kept duplicate of row `i` that the maintenance archive leaves. -/
def Proxy.Survives (cutoff : Timestamp) (i : Nat) (r : Proxy) : Prop :=
  r.duplicateOf = some i ∧ r.archivedAt = none ∧ ¬ r.DeadSince cutoff

instance (cutoff : Timestamp) (i : Nat) (r : Proxy) : Decidable (r.Survives cutoff i) :=
  inferInstanceAs (Decidable (_ ∧ _))

/-- A row due for the maintenance archive is also due for promotion and has an online duplicate, if
any duplicate survives it. -/
def HandsOver (now : Timestamp) (rows : List Proxy) : Prop :=
  ∀ c ∈ rows, c.DeadSince (now - hours 24) →
    (∃ r ∈ rows, r.Survives (now - hours 24) c.id) →
      c.PromotionDue now ∧ ∃ q ∈ rows, q.Promotable c.id

instance (now : Timestamp) (rows : List Proxy) : Decidable (HandsOver now rows) :=
  inferInstanceAs (Decidable (∀ c ∈ rows, _))

/-- No due row of `P` has a surviving duplicate. -/
def Bereft (now : Timestamp) (P : Nat → Prop) (rows : List Proxy) : Prop :=
  ∀ c ∈ rows, c.DeadSince (now - hours 24) → P c.id →
    ∀ r ∈ rows, ¬ r.Survives (now - hours 24) c.id

/-- The columns that due dates are read from are the same. -/
structure Proxy.SameDates (r r' : Proxy) : Prop where
  id : r'.id = r.id
  archivedAt : r'.archivedAt = r.archivedAt
  status : r'.status = r.status
  offlineSince : r'.offlineSince = r.offlineSince
  deadSince : r'.continuousDeadSince = r.continuousDeadSince

theorem Proxy.SameDates.dead {r r' : Proxy} (h : r.SameDates r') (cutoff : Timestamp) :
    r'.DeadSince cutoff ↔ r.DeadSince cutoff := by
  unfold Proxy.DeadSince
  rw [h.archivedAt, h.status, h.deadSince]

theorem Proxy.SameDates.due {r r' : Proxy} (h : r.SameDates r') (now : Timestamp) :
    r'.PromotionDue now ↔ r.PromotionDue now := by
  unfold Proxy.PromotionDue
  rw [h.status, h.offlineSince]

/-- A promotion out of row `i` leaves `i` without duplicates and every other due row as it was. -/
theorem handsOver_promoted {now : Timestamp} {P : Nat → Prop} {c q : Proxy}
    (hk : Table.Keyed Proxy.id rows) (hc : c ∈ rows) (hq : q ∈ rows) (hdue : c.PromotionDue now)
    (hpromotable : q.Promotable c.id) (hφ : ∀ r ∈ rows, r.SameDates (φ r))
    (hpointer : ∀ r ∈ rows, (φ r).duplicateOf = (r.promoted c.id q.id).duplicateOf)
    (hhands : HandsOver now rows) (hbereft : Bereft now P rows) :
    HandsOver now (rows.map φ) ∧ Bereft now (fun i => i = c.id ∨ P i) (rows.map φ) := by
  obtain ⟨hqc, honline, hqkept⟩ := hpromotable
  have hqne : q.id ≠ c.id := by
    intro hid
    rw [hk.eq hq hc hid] at honline
    rcases hdue.1 with hs | hs <;> rw [honline] at hs <;> cases hs
  have hqalive : ¬ q.DeadSince (now - hours 24) := by
    rintro ⟨_, hoffline, _⟩
    rw [honline] at hoffline
    cases hoffline
  -- duplicates of a due row other than `c` are where they were
  have hpoints : ∀ r ∈ rows, ∀ d ∈ rows, d.DeadSince (now - hours 24) →
      (φ r).duplicateOf = some d.id → d.id ≠ c.id ∧ r.duplicateOf = some d.id := by
    intro r hr d hd hdead hdup
    rw [hpointer r hr, Proxy.promoted_duplicateOf] at hdup
    split at hdup
    · cases hdup
    · split at hdup
      · rw [hk.eq hq hd (Option.some.inj hdup)] at hqalive
        exact absurd hdead hqalive
      · rename_i hother
        refine ⟨fun hid => hother (.inr (hid ▸ hdup)), hdup⟩
  have hsurvives : ∀ r ∈ rows, ∀ d ∈ rows, d.DeadSince (now - hours 24) →
      (φ r).Survives (now - hours 24) d.id → d.id ≠ c.id ∧ r.Survives (now - hours 24) d.id := by
    rintro r hr d hd hdead ⟨hdup, hkept, halive⟩
    obtain ⟨hne, hdup⟩ := hpoints r hr d hd hdead hdup
    exact ⟨hne, hdup, (hφ r hr).archivedAt.symm.trans hkept,
      fun h => halive (((hφ r hr).dead _).mpr h)⟩
  constructor
  · intro d' hd' hdead
    obtain ⟨d, hd, rfl⟩ := List.mem_map.mp hd'
    rw [(hφ d hd).dead] at hdead
    rw [(hφ d hd).id, (hφ d hd).due]
    rintro ⟨r', hr', hr'd⟩
    obtain ⟨r, hr, rfl⟩ := List.mem_map.mp hr'
    obtain ⟨hne, hrd⟩ := hsurvives r hr d hd hdead hr'd
    obtain ⟨hdue', p, hp, hpd, hponline, hpkept⟩ := hhands d hd hdead ⟨r, hr, hrd⟩
    refine ⟨hdue', φ p, List.mem_map_of_mem hp, ?_, (hφ p hp).status.trans hponline,
      (hφ p hp).archivedAt.trans hpkept⟩
    have hpq : p.id ≠ q.id := by
      intro hid
      rw [hk.eq hp hq hid, hqc] at hpd
      exact hne (Option.some.inj hpd).symm
    have hpc : ¬ (p.id = c.id ∨ p.duplicateOf = some c.id) := by
      rintro (hid | hdup)
      · rw [hk.eq hp hc hid] at hponline
        rcases hdue.1 with hs | hs <;> rw [hponline] at hs <;> cases hs
      · exact hne (Option.some.inj (hpd.symm.trans hdup))
    rw [hpointer p hp, Proxy.promoted_duplicateOf, if_neg hpq, if_neg hpc]
    exact hpd
  · intro d' hd' hdead hP r' hr' hr'd
    obtain ⟨d, hd, rfl⟩ := List.mem_map.mp hd'
    obtain ⟨r, hr, rfl⟩ := List.mem_map.mp hr'
    rw [(hφ d hd).dead] at hdead
    rw [(hφ d hd).id] at hP hr'd
    obtain ⟨hne, hrd⟩ := hsurvives r hr d hd hdead hr'd
    exact hbereft d hd hdead (hP.resolve_left hne) r hr hrd

theorem Grouped.died (h : Grouped heads ∅ rows) {now : Timestamp}
    (hbereft : heads → Bereft now (fun _ => True) rows) :
    Grouped heads ∅
      (Table.update (fun r => r.DeadSince (now - hours 24)) (fun r => r.archived now) rows) := by
  set χ : Proxy → Proxy := fun r => if r.DeadSince (now - hours 24) then r.archived now else r
  have hcolumns : ∀ r : Proxy, (χ r).id = r.id ∧ (χ r).exitIp = r.exitIp ∧
      (χ r).egressAttestationSource = r.egressAttestationSource ∧
      (χ r).duplicateOf = r.duplicateOf := by
    intro r
    simp only [χ]
    split <;> exact ⟨rfl, rfl, rfl, rfl⟩
  have hstays : ∀ r : Proxy, (χ r).archivedAt = none →
      χ r = r ∧ ¬ r.DeadSince (now - hours 24) := by
    intro r hkept
    simp only [χ] at hkept ⊢
    split at hkept
    · cases hkept
    · rename_i halive
      exact ⟨if_neg halive, halive⟩
  show Grouped heads ∅ (rows.map χ)
  refine ⟨h.keyed.map fun r _ => (hcolumns r).1, fun g hg => ?_, fun r' hr' => ?_,
    fun r' hr' hkept hdup => ?_, fun hheads r' hr' hkept c hc => ?_⟩
  · refine (h.led g hg).map (fun r _ => (hcolumns r).1) (fun r _ hgr => ?_)
      fun r _ hhome => (hcolumns r).2.1.trans hhome
    have hsame := (hstays r (Proxy.exitGroup?_eq_some.mp hgr).2.1).1
    exact ⟨hsame ▸ hgr, (hcolumns r).2.2.2⟩
  · obtain ⟨r, hr, rfl⟩ := List.mem_map.mp hr'
    rw [(hcolumns r).2.1, (hcolumns r).2.2.1]
    exact h.attested r hr
  · obtain ⟨r, hr, rfl⟩ := List.mem_map.mp hr'
    have hsame := (hstays r hkept).1
    rw [hsame] at hkept hdup ⊢
    exact h.placed r hr hkept hdup
  · obtain ⟨r, hr, rfl⟩ := List.mem_map.mp hr'
    obtain ⟨hsame, halive⟩ := hstays r hkept
    rw [hsame] at hkept hc
    obtain ⟨k, hk, rfl, hkkept⟩ := h.headed hheads r hr hkept c hc
    -- an archived leader would leave `r` behind
    have hkalive : ¬ k.DeadSince (now - hours 24) :=
      fun hdead => hbereft hheads k hk hdead trivial r hr ⟨hc, hkept, halive⟩
    exact ⟨χ k, List.mem_map_of_mem hk, (hcolumns k).1, by simpa only [χ, if_neg hkalive]⟩

theorem Bereft.mono {now : Timestamp} {P Q : Nat → Prop} (h : Bereft now P rows)
    (hPQ : ∀ i, Q i → P i) : Bereft now Q rows :=
  fun c hc hdead hQ => h c hc hdead (hPQ _ hQ)

/-- What holds while the maintenance archive still has the rows `rest` to promote duplicates of. -/
def Promoting (heads : Prop) (now : Timestamp) (rest : List Proxy) (db : Db) : Prop :=
  Grouped heads ∅ db.proxies ∧
    (heads → HandsOver now db.proxies ∧ Bereft now (fun i => i ∉ rest.map Proxy.id) db.proxies)

theorem Promoting.visit {now : Timestamp} {a : Proxy} {rest : List Proxy} {db db' : Db}
    (h : Promoting heads now (a :: rest) db)
    (hmap : Prod.fst <$> promoteDuplicateIfDue db a.id now = .ok db') :
    Promoting heads now rest db' := by
  obtain ⟨hgrouped, hheads⟩ := h
  obtain ⟨⟨db', promoted⟩, hok, rfl⟩ := ok_of_map hmap
  refine ⟨promoteDuplicateIfDue_grouped hgrouped hok, fun hh => ?_⟩
  obtain ⟨hhands, hbereft⟩ := hheads hh
  have hrest : ∀ i, i ∉ rest.map Proxy.id → i = a.id ∨ i ∉ (a :: rest).map Proxy.id := by
    intro i hi
    by_cases hia : i = a.id
    · exact .inl hia
    · exact .inr (by simpa [hia] using hi)
  rcases promoteDuplicateIfDue_rows hgrouped.keyed hok with
    ⟨hrows, hnone⟩ | ⟨c, hc, q, hq, hid, hdue, hpromotable, hrows⟩
  · rw [hrows]
    refine ⟨hhands, fun c hc hdead hP r hr hsurvives => ?_⟩
    rcases hrest c.id hP with hid | hP
    · obtain ⟨hdue, q, hq, hpromotable⟩ := hhands c hc hdead ⟨r, hr, hsurvives⟩
      exact hnone c hc hid hdue q hq (hid ▸ hpromotable)
    · exact hbereft c hc hdead hP r hr hsurvives
  · rw [← hid] at hpromotable hrows
    rw [hrows, Table.update, List.map_map]
    have hsame : ∀ r : Proxy, r.SameDates ((fun r => if r.id = q.id then r.restart now else r)
        (r.promoted c.id q.id)) ∧ ((fun r => if r.id = q.id then r.restart now else r)
        (r.promoted c.id q.id)).duplicateOf = (r.promoted c.id q.id).duplicateOf := by
      intro r
      simp only [Proxy.promoted]
      split_ifs <;> exact ⟨⟨rfl, rfl, rfl, rfl, rfl⟩, rfl⟩
    obtain ⟨hhands', hbereft'⟩ := handsOver_promoted hgrouped.keyed hc hq hdue hpromotable
      (fun r _ => (hsame r).1) (fun r _ => (hsame r).2) hhands hbereft
    exact ⟨hhands', hbereft'.mono fun i hi => hid ▸ hrest i hi⟩

theorem archiveDueDeadProxies_grouped {db db' : Db} {now : Timestamp} {n : Nat}
    (h : Grouped heads ∅ db.proxies) (hhands : heads → HandsOver now db.proxies)
    (hok : archiveDueDeadProxies db now = .ok (db', n)) : Grouped heads ∅ db'.proxies := by
  obtain ⟨promoted, hpromoted, hok⟩ := ok_of_bind hok
  obtain rfl := (Prod.mk.inj (Except.ok.inj hok)).1
  have hstart : Promoting heads now
      (db.proxies.filter fun r => r.DeadSince (now - hours 24)) db := by
    refine ⟨h, fun hh => ⟨hhands hh, fun c hc hdead hrest => absurd ?_ hrest⟩⟩
    exact List.mem_map_of_mem (List.mem_filter.mpr ⟨hc, decide_eq_true hdead⟩)
  obtain ⟨hgrouped, hheads⟩ :=
    ok_of_foldlM (fun _ _ _ _ => Promoting.visit) _ db promoted hstart hpromoted
  exact hgrouped.died fun hh => (hheads hh).2.mono fun i _ => by simp

/-! ## The other operations -/

theorem leaveGroup_grouped {db db' : Db} {row : Proxy} {f : Proxy → Proxy} {wall : Timestamp}
    (h : Grouped heads ∅ db.proxies) (hrow : row ∈ db.proxies) (hf : Leaves f)
    (hok : ((match row.exitIp with
        | some previousExit => canonicalizeExitGroup db previousExit false (some row.id) wall
        | none => pure db) >>= fun db => expirePendingCycle db row.id >>= fun db =>
          pure (db.updateProxy row.id f)) = .ok db') : Grouped heads ∅ db'.proxies := by
  obtain ⟨vacated, hvacated, hok⟩ := ok_of_bind hok
  obtain ⟨expired, hexpired, hok⟩ := ok_of_bind hok
  obtain rfl := Except.ok.inj hok
  have hrows : vacated.proxies = vacatedRows db.proxies row wall := by
    unfold vacatedRows
    cases hexit : row.exitIp with
    | none =>
      rw [hexit] at hvacated
      rw [← Except.ok.inj hvacated]
    | some exitIp =>
      rw [hexit] at hvacated
      exact canonicalizeExitGroup_rows hvacated
  obtain ⟨ψ, hψ, hvacates⟩ := vacatedRows_eq_map h.keyed row wall
  rw [expirePendingCycle_ok hexpired]
  show Grouped heads ∅ (Table.update (fun r => r.id = row.id) f vacated.proxies)
  rw [hrows, hψ]
  exact h.left hrow hvacates hf

theorem replaceProxy_grouped {db db' : Db} {i userId : Nat} {parsed : ParsedProxy}
    {now wall : Timestamp} (h : Grouped heads ∅ db.proxies)
    (hok : replaceProxy db i userId parsed now wall = .ok db') : Grouped heads ∅ db'.proxies := by
  unfold replaceProxy at hok
  cases howned : ownedProxy? db i userId with
  | none => rw [howned] at hok; cases hok
  | some existing =>
    obtain ⟨hrow, rfl, _⟩ := ownedProxy?_mem howned
    simp only [howned] at hok
    split at hok
    · cases hok
    · exact leaveGroup_grouped h hrow (replaced_leaves parsed now) hok

theorem archiveProxy_grouped {db db' : Db} {i userId : Nat} {now wall : Timestamp}
    (h : Grouped heads ∅ db.proxies) (hok : archiveProxy db i userId now wall = .ok db') :
    Grouped heads ∅ db'.proxies := by
  unfold archiveProxy at hok
  cases howned : ownedProxy? db i userId with
  | none => rw [howned] at hok; cases hok
  | some existing =>
    obtain ⟨hrow, rfl, _⟩ := ownedProxy?_mem howned
    rw [howned] at hok
    exact leaveGroup_grouped h hrow (archived_leaves now) hok

theorem reconcileExit_grouped {db db' : Db} {i : Nat} {exitIp : IpAddress}
    {source : AttestationSource} {wall : Timestamp} (h : Grouped heads ∅ db.proxies)
    (hok : reconcileExit db i exitIp source wall = .ok db') : Grouped heads ∅ db'.proxies := by
  rw [reconcileExit_rows hok]
  exact h.reconciled i exitIp source wall

theorem reconcileExitIp_grouped {db db' : Db} {i : Nat} {exitIp source : String} {wall : Timestamp}
    (h : Grouped heads ∅ db.proxies) (hok : reconcileExitIp db i exitIp source wall = .ok db') :
    Grouped heads ∅ db'.proxies := by
  unfold reconcileExitIp at hok
  split at hok
  · exact reconcileExit_grouped h hok
  · exact Except.ok.inj hok ▸ h

/-- Accruals leave the groups alone. -/
theorem Visits.grouped {now : Timestamp} {P : Nat → Prop} {db db' : Db}
    (hvisits : Visits now P db db')
    (h : Grouped heads ∅ db.proxies) : Grouped heads ∅ db'.proxies := by
  obtain ⟨φ, hφ, hsame⟩ := hvisits.moved.rows
  rw [hφ]
  exact h.map fun r _ => (hsame r).1.sameGroup

theorem closeCycle_grouped {db db' : Db} {i : Nat} {now : Timestamp} {accrues resets : Prop}
    [Decidable accrues] [Decidable resets] (h : Grouped heads ∅ db.proxies)
    (haccrues : accrues → resets) (hok : closeCycle db i now accrues resets = .ok db') :
    Grouped heads ∅ db'.proxies := by
  rw [closeCycle_rows h.keyed haccrues hok]
  exact h.update fun r _ _ => by split <;> exact ⟨rfl, rfl, rfl, rfl, rfl⟩

theorem applyLive_grouped {db db' : Db} {row : Proxy} {result : HealthResult} {now wall : Timestamp}
    (h : Grouped heads ∅ db.proxies) (hok : applyLive db row result now wall = .ok db') :
    Grouped heads ∅ db'.proxies := by
  unfold applyLive at hok
  simp only at hok
  rw [← bind_assoc] at hok
  obtain ⟨closed, hclosed, hok⟩ := ok_of_bind hok
  have hseen : Grouped heads ∅ (closed.updateProxy row.id fun r =>
      r.seenLive row result (observeLive row result (checkerSettings db).healthStaleMinutes now)
        (checkerSettings db) now).proxies :=
    (closeCycle_grouped h And.left hclosed).update fun _ _ _ => ⟨rfl, rfl, rfl, rfl, rfl⟩
  split at hok
  · exact reconcileExit_grouped hseen hok
  · exact Except.ok.inj hok ▸ hseen

theorem applyBlocked_grouped {db db' : Db} {row : Proxy} {now : Timestamp}
    (h : Grouped heads ∅ db.proxies) (hok : applyBlocked db row now = .ok db') :
    Grouped heads ∅ db'.proxies := by
  obtain ⟨accrued, haccrued, hok⟩ := ok_of_bind hok
  obtain ⟨restarted, hrestarted, hok⟩ := ok_of_bind hok
  obtain rfl := Except.ok.inj hok
  have hclosed : closeCycle db row.id now row.eligibility.Earning True = .ok restarted := by
    unfold closeCycle
    rw [haccrued]
    exact hrestarted
  exact (closeCycle_grouped h (fun _ => trivial) hclosed).update
    fun _ _ _ => ⟨rfl, rfl, rfl, rfl, rfl⟩

theorem applyFailure_grouped {db db' : Db} {row : Proxy} {result : HealthResult} {now : Timestamp}
    (h : Grouped heads ∅ db.proxies) (hok : applyFailure db row result now = .ok db') :
    Grouped heads ∅ db'.proxies := by
  obtain ⟨accrued, haccrued, hok⟩ := ok_of_bind hok
  have haccrued' : Grouped heads ∅ accrued.proxies := by
    split at haccrued
    · exact ((accrueProxyTime_does h.keyed row.id).of_ok haccrued).grouped h
    · exact Except.ok.inj haccrued ▸ h
  have hseen : Grouped heads ∅ (accrued.updateProxy row.id fun r =>
      r.seenFailing row result (checkerSettings db) now).proxies :=
    haccrued'.update fun _ _ _ => ⟨rfl, rfl, rfl, rfl, rfl⟩
  simp only at hok
  split at hok
  · rw [resetProbation_ok hok]
    exact hseen.update fun _ _ _ => ⟨rfl, rfl, rfl, rfl, rfl⟩
  · exact Except.ok.inj hok ▸ hseen

theorem applyHealthResult_grouped {db db' : Db} {i : Nat} {result : HealthResult}
    {now wall : Timestamp} (h : Grouped heads ∅ db.proxies)
    (hok : applyHealthResult db i result now wall = .ok db') : Grouped heads ∅ db'.proxies := by
  unfold applyHealthResult at hok
  cases hrow : result.row? db i with
  | none =>
    rw [hrow] at hok
    exact Except.ok.inj hok ▸ h
  | some row =>
    simp only [hrow] at hok
    cases hbranch : result.branch with
    | live =>
      rw [hbranch] at hok
      exact applyLive_grouped h hok
    | uncertain =>
      rw [hbranch] at hok
      exact Except.ok.inj hok ▸ h.update fun _ _ _ => ⟨rfl, rfl, rfl, rfl, rfl⟩
    | egressUnconfirmed =>
      rw [hbranch] at hok
      exact Except.ok.inj hok ▸ h.update fun _ _ _ => ⟨rfl, rfl, rfl, rfl, rfl⟩
    | blocked =>
      rw [hbranch] at hok
      exact applyBlocked_grouped h hok
    | failure =>
      rw [hbranch] at hok
      exact applyFailure_grouped h hok

theorem applyEarnappResult_grouped {db db' : Db} {i : Nat} {result : EarnappResult}
    {now wall : Timestamp} (h : Grouped heads ∅ db.proxies)
    (hok : applyEarnappResult db i result now wall = .ok db') : Grouped heads ∅ db'.proxies := by
  unfold applyEarnappResult at hok
  cases hrow : result.row? db i with
  | none =>
    rw [hrow] at hok
    exact Except.ok.inj hok ▸ h
  | some previous =>
    simp only [hrow] at hok
    obtain ⟨-, rfl, -⟩ := EarnappResult.row?_mem hrow
    obtain ⟨reconciled, hsettled, hok⟩ := ok_of_bind hok
    rw [settle_eq] at hsettled
    obtain ⟨closed, hclosed, hreconciled⟩ := ok_of_bind hsettled
    obtain rfl := Except.ok.inj hok
    have hclosed' : Grouped heads ∅ closed.proxies :=
      closeCycle_grouped h (fun ha => by simp [EarnappResult.resets, ha.1]) hclosed
    have hreconciled' : Grouped heads ∅ reconciled.proxies := by
      split at hreconciled
      · exact reconcileExit_grouped hclosed' hreconciled
      · exact Except.ok.inj hreconciled ▸ hclosed'
    exact hreconciled'.update fun _ _ _ => ⟨rfl, rfl, rfl, rfl, rfl⟩

/-- A new row is in no group. -/
theorem Grouped.added {db : Db} (h : Grouped heads ∅ db.proxies) (userId : Nat)
    (parsed : ParsedProxy) (now : Timestamp) :
    Grouped heads ∅ (db.proxies ++ [newProxy db userId parsed now]) := by
  have hold : ∀ {r : Proxy}, r ∈ db.proxies ++ [newProxy db userId parsed now] →
      r ∈ db.proxies ∨
        (r.exitIp = none ∧ r.egressAttestationSource = none ∧ r.duplicateOf = none) := by
    intro r hr
    rcases List.mem_append.mp hr with hr | hr
    · exact .inl hr
    · rw [List.mem_singleton.mp hr]
      exact .inr ⟨rfl, rfl, rfl⟩
  refine ⟨h.keyed.append_fresh fun r hr => newProxy_fresh hr,
    fun g hg => (h.led g hg).append rfl, fun r hr => ?_, fun r hr hkept hdup => ?_,
    fun hheads r hr hkept c hc => ?_⟩
  · rcases hold hr with hr | ⟨hexit, hsource, _⟩
    · exact h.attested r hr
    · simp [hexit, hsource]
  · rcases hold hr with hr | ⟨_, _, hnone⟩
    · exact h.placed r hr hkept hdup
    · exact absurd hnone hdup
  · rcases hold hr with hr | ⟨_, _, hnone⟩
    · obtain ⟨k, hk, hkc⟩ := h.headed hheads r hr hkept c hc
      exact ⟨k, List.mem_append_left _ hk, hkc⟩
    · rw [hnone] at hc
      cases hc

/-- The maintenance archive hands the duplicates of the rows it takes over to an online one. -/
def Event.HandsOver (db : Db) (ev : Event) : Prop :=
  ev.op = .archiveDueDeadProxies → EarnProxy.HandsOver ev.now db.proxies

instance (db : Db) (ev : Event) : Decidable (ev.HandsOver db) :=
  inferInstanceAs (Decidable (_ → _))

/-- The operations on proxies keep the groups, each by the result above. -/
theorem step_grouped_of_onProxies {db db' : Db} {ev : Event} (h : Grouped heads ∅ db.proxies)
    (hop : ev.op.OnProxies) (hhands : heads → ev.HandsOver db) (hok : step db ev = .ok db') :
    Grouped heads ∅ db'.proxies := by
  obtain ⟨op, now, wall⟩ := ev
  cases op with
  | replaceProxy proxyId userId parsed => exact replaceProxy_grouped h hok
  | archiveProxy proxyId userId => exact archiveProxy_grouped h hok
  | promoteDuplicateIfDue canonicalId =>
    obtain ⟨⟨db', promoted⟩, hpromoted, rfl⟩ := ok_of_map hok
    exact promoteDuplicateIfDue_grouped h hpromoted
  | archiveDueDeadProxies =>
    obtain ⟨⟨db', n⟩, harchived, rfl⟩ := ok_of_map hok
    exact archiveDueDeadProxies_grouped h (fun hh => hhands hh rfl) harchived
  | reconcileExitIp proxyId exitIp source =>
    have hok : reconcileExitIp db proxyId exitIp source wall = .ok db' := hok
    exact reconcileExitIp_grouped h hok
  | applyHealthResult proxyId result => exact applyHealthResult_grouped h hok
  | applyEarnappResult proxyId result => exact applyEarnappResult_grouped h hok
  | accrueEligibleTime =>
    have hok : accrueEligibleTime db now = .ok db' := hok
    exact ((accrueEligibleTime_does h.keyed).of_ok hok).grouped h
  | accrueProxyTime proxyId =>
    have hok : accrueProxyTime db proxyId now = .ok db' := hok
    exact ((accrueProxyTime_does h.keyed proxyId).of_ok hok).grouped h
  | expirePendingCycle proxyId =>
    have hok : expirePendingCycle db proxyId = .ok db' := hok
    rw [expirePendingCycle_ok hok]
    exact h
  | _ => exact hop.elim

theorem step_grouped {db db' : Db} {ev : Event} (h : Grouped heads ∅ db.proxies)
    (hhands : heads → ev.HandsOver db) (hok : step db ev = .ok db') :
    Grouped heads ∅ db'.proxies := by
  rcases step_ok_cases hok with hop | ⟨userId, parsed, rfl⟩ | hsame
  · exact step_grouped_of_onProxies h hop hhands hok
  · exact h.added userId parsed ev.now
  · exact hsame.proxies ▸ h

theorem exec_grouped {db : Db} {ev : Event} (h : Grouped heads ∅ db.proxies)
    (hhands : heads → ev.HandsOver db) : Grouped heads ∅ (exec db ev).proxies := by
  cases hstep : step db ev with
  | error e =>
    rw [exec_of_error hstep]
    exact h
  | ok db' =>
    rw [exec_of_ok hstep]
    exact step_grouped h hhands hstep

end Grouped

/-- A kept row with a trusted address that is no duplicate. -/
structure Proxy.Canonical (r : Proxy) : Prop where
  kept : r.archivedAt = none
  trusted : r.egressAttestationSource ≠ none
  single : r.duplicateOf = none

/-- An address has at most one canonical row. -/
theorem Grouped.canonical_eq {heads : Prop} {rows : List Proxy} (h : Grouped heads ∅ rows)
    {r r' : Proxy} (hr : r ∈ rows) (hr' : r' ∈ rows) (hcanonical : r.Canonical)
    (hcanonical' : r'.Canonical) (hexit : r.exitIp = r'.exitIp) : r = r' := by
  obtain ⟨g, hg⟩ := Option.ne_none_iff_exists'.mp fun hnone =>
    hcanonical.trusted ((h.attested r hr).mp hnone)
  have hgroup : r.exitGroup? = some g :=
    Proxy.exitGroup?_eq_some.mpr ⟨hg, hcanonical.kept, hcanonical.trusted⟩
  have hgroup' : r'.exitGroup? = some g :=
    Proxy.exitGroup?_eq_some.mpr ⟨hexit ▸ hg, hcanonical'.kept, hcanonical'.trusted⟩
  exact (h.led g (Set.notMem_empty g)).unique h.keyed hr hr' hgroup hgroup' hcanonical.single
    hcanonical'.single

theorem Db.Fresh.grouped {db : Db} (h : db.Fresh) (heads : Prop) : Grouped heads ∅ db.proxies := by
  rw [h.proxies]
  exact ⟨List.nodup_nil, by simp [Table.Grouping.Led], by simp, by simp, by simp⟩

section Runs

variable {db₀ db : Db} {h : List (Event × Db)}

theorem Runs.grouped {heads : Prop} (hfresh : db₀.Fresh) (run : Runs db₀ h db)
    (hhands : heads → History.Throughout (fun db ev => ev.HandsOver db) db₀ h) :
    Grouped heads ∅ db.proxies := by
  refine History.Run.invariant (I := fun h db =>
    (heads → History.Throughout (fun db ev => ev.HandsOver db) db₀ h) → Grouped heads ∅ db.proxies)
    (fun _ => hfresh.grouped heads) ?_ run hhands
  rintro h s ev s' hrun hI rfl hhands
  exact exec_grouped (hI fun hh => (hhands hh).2) fun hh => (hhands hh).head hrun

/-- In every reachable state, two kept rows with one trusted exit address are not both canonical. -/
theorem one_canonical_per_exit (hfresh : db₀.Fresh) (run : Runs db₀ h db) :
    db.proxies.Pairwise fun r r' => r.archivedAt = none → r'.archivedAt = none →
      r.egressAttestationSource ≠ none → r'.egressAttestationSource ≠ none →
      r.exitIp = r'.exitIp → ¬ (r.duplicateOf = none ∧ r'.duplicateOf = none) := by
  have hgrouped : Grouped False ∅ db.proxies := run.grouped hfresh nofun
  refine (List.pairwise_map.mp hgrouped.keyed).imp_of_mem ?_
  rintro r r' hr hr' hne hkept hkept' hsource hsource' hexit ⟨hdup, hdup'⟩
  have heq := hgrouped.canonical_eq hr hr' ⟨hkept, hsource, hdup⟩ ⟨hkept', hsource', hdup'⟩ hexit
  exact hne (congrArg Proxy.id heq)

end Runs

open Scenario in
/-- Two proxies are seen at one address. -/
def sharedExit : List Event :=
  [minute 0 (.addProxy 1 (endpoint "192.0.2.1") none),
    minute 0 (.addProxy 1 (endpoint "192.0.2.2") none),
    minute 1 (.applyHealthResult 1 (liveFrom "198.51.100.7")),
    minute 2 (.applyHealthResult 2 (liveFrom "198.51.100.7"))]

open Scenario in
theorem one_canonical_per_exit_sharedExit :
    ((after oneUser sharedExit).proxies.map fun r => (r.exitIp.isSome, r.duplicateOf)) =
        [(true, none), (true, some 1)] ∧
      (after oneUser sharedExit).proxies.Pairwise fun r r' =>
        r.archivedAt = none → r'.archivedAt = none →
        r.egressAttestationSource ≠ none → r'.egressAttestationSource ≠ none →
        r.exitIp = r'.exitIp → ¬ (r.duplicateOf = none ∧ r'.duplicateOf = none) :=
  ⟨by decide, one_canonical_per_exit oneUser_fresh (runs oneUser sharedExit)⟩

/-! ## Pointers -/

/-- Every kept duplicate points at a kept canonical row of its address, and every kept row with a
trusted address shares it with one. -/
def Db.PointersWellFormed (db : Db) : Prop :=
  (∀ r ∈ db.proxies, r.archivedAt = none → ∀ c ∈ r.duplicateOf, ∃ k ∈ db.proxies,
    k.id = c ∧ k.archivedAt = none ∧ k.duplicateOf = none ∧ k.exitIp = r.exitIp) ∧
  ∀ r ∈ db.proxies, r.archivedAt = none → r.egressAttestationSource ≠ none → ∃ k ∈ db.proxies,
    k.archivedAt = none ∧ k.egressAttestationSource ≠ none ∧ k.exitIp = r.exitIp ∧
    k.duplicateOf = none

instance (db : Db) : Decidable db.PointersWellFormed := inferInstanceAs (Decidable (_ ∧ _))

open Scenario in
/-- The canonical proxy dies for good while its duplicate is only suspect. -/
def strandedDuplicate : List Event :=
  sharedExit ++
    [minute 3 (.applyHealthResult 2 { status := "dead" }),
      minute 4 (.applyHealthResult 2 { status := "dead" }),
      minute 10 (.applyHealthResult 1 { status := "dead" }),
      minute 11 (.applyHealthResult 1 { status := "dead" }),
      minute 12 (.applyHealthResult 1 { status := "dead" }),
      minute 1452 .archiveDueDeadProxies]

open Scenario in
/-- The maintenance archive leaves a duplicate behind that points at an archived row. -/
theorem pointers_strandedDuplicate :
    oneUser.Fresh ∧
      Runs oneUser (history oneUser strandedDuplicate) (after oneUser strandedDuplicate) ∧
      ((after oneUser strandedDuplicate).proxies.map fun r => (r.status, r.duplicateOf)) =
        [(.archived, none), (.suspect, some 1)] ∧
      ¬ (after oneUser strandedDuplicate).PointersWellFormed :=
  ⟨oneUser_fresh, runs oneUser strandedDuplicate, by decide, by decide⟩

section Runs

variable {db₀ db : Db} {h : List (Event × Db)}

/-- A kept row that leads a group is a canonical member of it. -/
theorem Grouped.leader_member {rows : List Proxy} {heads : Prop} (h : Grouped heads ∅ rows)
    {g : IpAddress} {k : Proxy} (hk : k ∈ rows) (hleads : exits.Leads rows g k.id)
    (hkept : k.archivedAt = none) :
    k.exitIp = some g ∧ k.egressAttestationSource ≠ none ∧ k.duplicateOf = none := by
  obtain ⟨k', hk', hid, hhome⟩ := hleads.home
  obtain rfl := h.keyed.eq hk' hk hid
  have hexit : k'.exitIp = some g := hhome
  have hsource : k'.egressAttestationSource ≠ none := by
    intro hnone
    rw [(h.attested k' hk).mpr hnone] at hexit
    cases hexit
  refine ⟨hexit, hsource, ?_⟩
  have hpoints := hleads.points k' hk (Proxy.exitGroup?_eq_some.mpr ⟨hexit, hkept, hsource⟩)
  exact hpoints.trans (if_pos rfl)

/-- When every maintenance archive hands the duplicates over, pointers are well formed in every
reachable state. -/
theorem pointers_well_formed (hfresh : db₀.Fresh) (run : Runs db₀ h db)
    (hhands : History.Throughout (fun db ev => ev.HandsOver db) db₀ h) : db.PointersWellFormed := by
  have hgrouped : Grouped True ∅ db.proxies := run.grouped hfresh fun _ => hhands
  constructor
  · intro r hr hkept c hc
    have hdup : r.duplicateOf ≠ none := fun hnone => by rw [hnone] at hc; cases hc
    obtain ⟨g, hg, hgroup⟩ := hgrouped.group_of_duplicate hr hkept hdup
    obtain ⟨hleads, _⟩ := (hgrouped.led g (Set.notMem_empty g)).of_pointer hr hgroup hc
    obtain ⟨k, hk, rfl, hkkept⟩ := hgrouped.headed trivial r hr hkept c hc
    obtain ⟨hkexit, _, hkdup⟩ := hgrouped.leader_member hk hleads hkkept
    exact ⟨k, hk, rfl, hkkept, hkdup, hkexit.trans hg.symm⟩
  · intro r hr hkept hsource
    obtain ⟨g, hg⟩ := Option.ne_none_iff_exists'.mp fun hnone =>
      hsource ((hgrouped.attested r hr).mp hnone)
    by_cases hdup : r.duplicateOf = none
    · exact ⟨r, hr, hkept, hsource, rfl, hdup⟩
    · obtain ⟨c, hc⟩ := Option.ne_none_iff_exists'.mp hdup
      have hgroup : r.exitGroup? = some g := Proxy.exitGroup?_eq_some.mpr ⟨hg, hkept, hsource⟩
      obtain ⟨hleads, _⟩ := (hgrouped.led g (Set.notMem_empty g)).of_pointer hr hgroup hc
      obtain ⟨k, hk, rfl, hkkept⟩ := hgrouped.headed trivial r hr hkept c hc
      obtain ⟨hkexit, hksource, hkdup⟩ := hgrouped.leader_member hk hleads hkkept
      exact ⟨k, hk, hkkept, hksource, hkexit.trans hg.symm, hkdup⟩

end Runs

open Scenario in
/-- The canonical proxy dies for good while its duplicate is online. -/
def promotedDuplicate : List Event :=
  sharedExit ++
    [minute 10 (.applyHealthResult 1 { status := "dead" }),
      minute 11 (.applyHealthResult 1 { status := "dead" }),
      minute 12 (.applyHealthResult 1 { status := "dead" }),
      minute 1452 .archiveDueDeadProxies]

open Scenario in
theorem pointers_well_formed_promotedDuplicate :
    ((after oneUser promotedDuplicate).proxies.map fun r => (r.status, r.duplicateOf)) =
        [(.archived, some 2), (.online, none)] ∧
      (after oneUser promotedDuplicate).PointersWellFormed :=
  ⟨by decide, pointers_well_formed oneUser_fresh (runs oneUser promotedDuplicate) (by decide)⟩

end EarnProxy
