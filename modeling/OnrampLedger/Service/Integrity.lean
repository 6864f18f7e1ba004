import OnrampLedger.Service.Wallets

/-!
# The integrity monitor

The monitor pages through all wallets in order of their ids and compares each cached
balance with its ledger: the credits less the debits, and the balance after the newest
entry. A wallet that disagrees with either is flagged for review, unless it already is
for this reason, and the newly flagged ones are reported to alerting. The monitor never
corrects a balance.

The delta reported is the balance less the ledger sum, or, when those agree, the
balance less the newest entry's balance.
-/

namespace OnrampLedger

/-- What an integrity run found. -/
structure IntegrityReport where
  checked : Nat
  mismatches : List Mismatch
  deriving Repr

/-- The report as JSON. -/
def IntegrityReport.toJson (r : IntegrityReport) : Json :=
  .object [("checked", .int r.checked), ("mismatches", .array (r.mismatches.map Mismatch.toJson)),
    ("flagged", .int r.mismatches.length)]

namespace Integrity

/-- The reason integrity flags carry. -/
def flagReason : String := "ledger_mismatch"

/-- How a wallet disagrees with the credits less the debits of its ledger, `ledger`, and
with the balance after its newest entry, `latest`, if it does. -/
def mismatch (w : Wallet) (ledger latest : Decimal) : Option Mismatch :=
  if w.balance == ledger && w.balance == latest then none
  else
    let delta := if w.balance - ledger == 0 then w.balance - latest else w.balance - ledger
    some ⟨w.id, w.userId, w.balance, ledger, latest, delta⟩

/-- How a wallet disagrees with its ledger, if it does. -/
def compare (s : Store) (w : Wallet) : Option Mismatch :=
  mismatch w (s.ledgerBalance w.id) (s.latestAfter w.id)

/-- Flags the disagreeing wallets of a page not yet flagged for this reason; answers
those it flagged. -/
def flagPage (suspects : List Wallet) : Op (List Mismatch) := do
  let now ← Op.now
  suspects.foldlM (fun acc w => do
    let s ← Op.store
    match s.wallet? w.id with
    | none => return acc
    | some cur =>
      match compare s cur with
      | none => return acc
      | some m =>
        if cur.flagged && cur.flagReason == flagReason then return acc
        let marked := { cur with flagged := true, flagReason, flaggedAt := some now,
                                 flagDelta := some m.delta }
        Op.modifyStore (·.putWallet marked)
        return acc ++ [m]) []

/-- Pages through the wallets after `after`; `fuel` bounds the number of pages. -/
def pages (batch : Nat) : Nat → String → IntegrityReport → Op IntegrityReport
  | 0, _, r => return r
  | fuel + 1, after, r => do
    let s ← Op.store
    let page := s.walletsAfter after batch
    if page.isEmpty then return r
    let suspects := page.filter fun w => (compare s w).isSome
    let flagged ← if suspects.isEmpty then pure [] else flagPage suspects
    let r := { r with checked := r.checked + page.length, mismatches := r.mismatches ++ flagged }
    if page.length < batch then return r
    pages batch fuel ((page.getLast?.map (·.id)).getD after) r

/-- One integrity run: flags the disagreeing wallets and reports the new ones to
alerting. -/
def run : Op IntegrityReport := do
  let batch := (← Op.settings).integrityBatch
  let batch := if batch ≤ 0 then 500 else batch.toNat
  let s ← Op.store
  let r ← pages batch (s.wallets.length + 1) "" ⟨0, []⟩
  r.mismatches.forM Alerting.balanceMismatch
  return r

/-- Clears a wallet's review flag. -/
def clearFlag (id : String) (admin : Actor) : Op Unit := do
  Op.require admin.isAdmin .clearFlagNeedsAdmin
  let w ← Op.found ((← Op.store).wallet? id) (.walletIdNotFound id)
  let now ← Op.now
  let cleared := { w with flagged := false, flagReason := "", flaggedAt := none, flagDelta := none,
                          updatedAt := now }
  Op.modifyStore (·.putWallet cleared)

end Integrity

end OnrampLedger
