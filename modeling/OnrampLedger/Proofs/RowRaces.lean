import OnrampLedger.Proofs.RowAccounts
import OnrampLedger.Service.Concurrency
import OnrampLedger.Proofs.DebitRace

/-!
# Races on payment rows

One command at a time, a payment's row counts exactly the retry cycles that took it up
and keeps the text of its last refusal (`payment_rows_accounted`). Run together, the
engine's calls write the row back from copies read earlier, each guarded only by the
row's status (`Tx.writeBack`): two write-backs that both read the row before either
writes both pass their guard, and the second restores whatever the first changed.

A retry's write-back and the failure record of a refused processing are two such calls:
the row can lose the attempt a retry cycle counted, or the text of the refusal that was
recorded, whichever of the two committed first.

## Main results

* `Tx.writeBack_race` — of two write-backs of one row that both read it first, the second
  wins whole.
* `payment_row_updates_lost` — a retry's attempt and a refusal's text, each lost to the
  other's write-back.
-/

namespace OnrampLedger

/-! ## Writing back the row a lookup finds -/

section
variable {α : Type} {p q : α → Bool} {x y : α} {l : List α}

/-- Writing back the row that two lookups both find first, as a row the first lookup
accepts, makes the new row what that lookup finds. -/
theorem find?_replaceFirst_found (hy : l.find? q = some y) (hpy : l.find? p = some y)
    (hx : q x) : (replaceFirst p x l).find? q = some x := by
  induction l with
  | nil => simp at hy
  | cons z zs ih =>
    by_cases hz : p z
    · simp [replaceFirst, hz, hx]
    · -- the head is not the row found, so neither lookup stops there
      have hzy : z ≠ y := fun hzy => by
        rw [hzy] at hz
        exact hz (List.find?_some hpy)
      have hqz : q z = false := by
        cases hq : q z
        · rfl
        · simp [hq] at hy
          exact absurd hy hzy
      have hy' : zs.find? q = some y := by simpa [hqz] using hy
      have hpy' : zs.find? p = some y := by simpa [hz] using hpy
      simp [replaceFirst, hz, hqz, ih hy' hpy']

end

namespace Store

variable {s : Store} {x st : String} {p r : WebhookEvent}

/-- Writing back the row of payment `x` under its id, when that row is also what its id
finds, makes the new row what both find. -/
theorem putWebhook_found (hp : s.webhookByExternal? x = some p) (hid : s.webhook? p.id = some p)
    (hr : r.id = p.id) (hx : r.externalId = x) :
    (s.putWebhook r).webhookByExternal? x = some r ∧ (s.putWebhook r).webhook? p.id = some r := by
  have hpid : (s.webhooks.find? fun z => z.id == r.id) = some p := by rw [hr]; exact hid
  constructor
  · exact find?_replaceFirst_found hp hpid (by simp [hx])
  · show (replaceFirst (·.id == r.id) r s.webhooks).find? (·.id == p.id) = some r
    rw [← hr]
    exact find?_replaceFirst_self (by simp) ⟨p, List.mem_of_find?_eq_some hid, by simp [hr]⟩

/-- A lone conditional write-back of a payment row commits when the row its id finds has
the status expected. -/
theorem commit?_updateEvent {expected : WebhookStatus} (h : s.webhook? r.id = some p)
    (hst : p.status = expected) : s.commit? [.updateEvent r expected] = some (s.putWebhook r) := by
  simp [commit?, Write.check, Write.apply, h, hst]

end Store

/-! ## Write-backs that race -/

/-- **Write-backs race.** Two write-backs of the row of payment `x` that both read it
before either writes both commit, when the first keeps the row's status; and the row
ends as the second made it from the copy both read, whatever the first wrote. -/
theorem Tx.writeBack_race {s : Store} {x : String} {p : WebhookEvent}
    (f g : WebhookEvent → WebhookEvent) (hp : s.webhookByExternal? x = some p)
    (hid : s.webhook? p.id = some p)
    (hf : (f p).id = p.id ∧ (f p).externalId = x ∧ (f p).status = p.status)
    (hg : (g p).id = p.id ∧ (g p).externalId = x) :
    let M := (Machine.start s ![writeBack x f, writeBack x g]).run
      [.step 0, .step 1, .step 0, .step 0, .step 1, .step 1]
    M.committed.length = 2 ∧ M.store.webhookByExternal? x = some (g p) := by
  obtain ⟨hfid, hfx, hfst⟩ := hf
  obtain ⟨hgid, hgx⟩ := hg
  -- the first commit writes `f p` over the row; the second then finds it with the status
  -- both read, and writes `g p` over it
  have hfirst := Store.putWebhook_found hp hid hfid hfx
  have hc₁ := Store.commit?_updateEvent (hfid ▸ hid) rfl
  have hc₂ : (s.putWebhook (f p)).commit? [.updateEvent (g p) p.status] = _ :=
    Store.commit?_updateEvent (hgid ▸ hfirst.2) hfst
  have hsecond := Store.putWebhook_found hfirst.1 (hfid ▸ hfirst.2) (hgid.trans hfid.symm) hgx
  intro M
  simp [M, Machine.run, Machine.perform, Machine.step, Machine.start, Machine.setThread,
    Machine.answer, Machine.blocked, writeBack, Call.result, Call.next, hp, TxState.empty,
    hc₁, hc₂]
  exact hsecond.1

/-- A failed row, whose retry write-back and whose refused processing's failure record
both read it before either wrote. When the retry commits first, the record written after
it restores the count it read: the attempt is lost though both committed. When the record
commits first, the retry restores the text it read: the refusal's text is lost. -/
theorem payment_row_updates_lost :
    let p : WebhookEvent := ⟨"r1", "moonpay", "x", "h", .failed, 0, none, none, "", "w1",
      "event currency EUR does not match wallet currency USD", default, default⟩
    let s : Store := { Store.empty with webhooks := [p] }
    let retry := Tx.writeBack "x" (Retry.attempt 3 default)
    let record := Tx.writeBack "x" (Intake.markFailed "" "no wallet for user u" default)
    let race := fun first second : Tx => (Machine.start s ![first, second]).run
      [.step 0, .step 1, .step 0, .step 0, .step 1, .step 1]
    ((race retry record).committed.length = 2 ∧
        ((race retry record).store.webhookByExternal? "x").map (·.retryCount) = some 0) ∧
      ((race record retry).committed.length = 2 ∧
        ((race record retry).store.webhookByExternal? "x").map (·.errorMessage) =
          some "event currency EUR does not match wallet currency USD") := by
  intro p s retry record race
  have hp : s.webhookByExternal? "x" = some p := rfl
  have hid : s.webhook? p.id = some p := rfl
  have hretry := Tx.writeBack_race (Retry.attempt 3 default)
    (Intake.markFailed "" "no wallet for user u" default) hp hid ⟨rfl, rfl, by decide⟩ ⟨rfl, rfl⟩
  have hrecord := Tx.writeBack_race (Intake.markFailed "" "no wallet for user u" default)
    (Retry.attempt 3 default) hp hid ⟨rfl, rfl, rfl⟩ ⟨rfl, by decide⟩
  exact ⟨⟨hretry.1, by rw [hretry.2]; rfl⟩, ⟨hrecord.1, by rw [hrecord.2]; decide⟩⟩

end OnrampLedger
