import OnrampLedger.Proofs.Provenance

/-!
# Who may move money

Each way of writing an entry has its own gate. A debit and a transfer's two legs need the
owner of the wallet money leaves, checked under the wallet's lock. A credit needs its
source's right to credit (`Wallets.CreditAdmitted`): an operator for `admin`, a verified
provider report with an event id for `webhook`. A manual credit sends an operator's
credit, a payment is credited only when its report was verified, and a replay of a
missing-webhook case needs an operator before it reads the case.

The repeat checks of credits, debits and transfers read the ledger before any of these
gates, so a caller who may not write can learn whether an operation was done. They never
write: a credit, debit or transfer whose key is taken leaves the world as it was.

## Main results

* `Command.run_authorized` — the entries one command appends are each authorized.
* `only_authorized_move_money` — every entry of a run's ledger was appended by a command
  whose caller could make it, and the repeat checks write nothing.
-/

namespace OnrampLedger

open Std.Do

set_option mvcgen.warning false

/-- The store has wallet `id`, owned by `user`. -/
def Store.OwnedBy (s : Store) (id user : String) : Prop :=
  ∃ w, s.wallet? id = some w ∧ w.userId = user

namespace Command

/-- The caller of `c` could write entry `e` on world `W`. An entry of debit direction
comes from a debit or a transfer's debit leg, by the owner of the wallet it debits. An
entry of credit direction comes from a transfer by the owner of the wallet it sends
from; or from an operator's credit or manual credit, as an `admin` entry; or as a
`webhook` entry with an event id, from a credit of a verified report, a verified payment
or an operator's replay. -/
def Authorized (c : Command) (W : World) (e : LedgerEntry) : Prop :=
  (e.type.isCredit = false →
    (∃ r, c = .debit r ∧ W.store.OwnedBy e.wallet r.actor.id) ∨
      ∃ r, c = .transfer r ∧ e.wallet = r.source ∧ W.store.OwnedBy r.source r.actor.id) ∧
  (e.type.isCredit = true →
    (∃ r, c = .transfer r ∧ W.store.OwnedBy r.source r.actor.id) ∨
    (e.source = .admin ∧
      ((∃ r, c = .credit r ∧ r.actor.isAdmin = true) ∨
        ∃ wallet amount reason admin,
          c = .manualCredit wallet amount reason admin ∧ admin.isAdmin = true)) ∨
    (e.source = .webhook ∧ e.providerEventId ≠ "" ∧
      ((∃ r, c = .credit r ∧ r.verified = true) ∨ (∃ ev, c = .process ev true) ∨
        ∃ id admin, c = .replayMissing id admin ∧ admin.isAdmin = true)))

end Command

namespace Wallets

/-- An admitted credit's entry is an operator's `admin` entry or a verified report's
`webhook` entry with an event id. -/
theorem CreditEntry.gate {r : CreditRequest} {e : LedgerEntry} (he : CreditEntry r e) :
    (e.source = .admin ∧ r.actor.isAdmin = true) ∨
      (e.source = .webhook ∧ r.verified = true ∧ e.providerEventId ≠ "") := by
  have hsource := he.source
  rcases he.admitted.1 with ⟨hadmin, hactor⟩ | ⟨hwebhook, hverified, hevent⟩
  · rw [hadmin, Option.some.injEq] at hsource
    exact .inl ⟨hsource.symm, hactor⟩
  · rw [hwebhook, Option.some.injEq] at hsource
    exact .inr ⟨hsource.symm, hverified, he.providerEventId ▸ hevent⟩

/-- The entry of a credit with source `webhook` is a `webhook` entry with an event id. -/
theorem CreditEntry.webhook {r : CreditRequest} {e : LedgerEntry} (he : CreditEntry r e)
    (hsource : r.source = Source.webhook.name) : e.source = .webhook ∧ e.providerEventId ≠ "" := by
  have hwebhook : e.source = .webhook := by
    have h := he.source
    rw [hsource, Source.ofName?_name, Option.some.injEq] at h
    exact h.symm
  rcases he.gate with ⟨hadmin, -⟩ | ⟨-, -, hevent⟩
  · rw [hwebhook] at hadmin
    cases hadmin
  · exact ⟨hwebhook, hevent⟩

/-- A repeated credit reads the wallet and the entry, and writes nothing. -/
theorem credit_taken (W₀ : World) (r : CreditRequest)
    (htaken : (W₀.store.entryByKey? (creditKey r)).isSome) :
    ⦃fun W => ⌜W = W₀⌝⦄ credit r ⦃post⟨fun _ W => ⌜W = W₀⌝, fun _ W => ⌜W = W₀⌝⟩⦄ := by
  mvcgen [credit, duplicateView]
  all_goals simp_all +zetaDelta

/-- A debit either fails a check on its own arguments or, with its key taken, answers the
repeat to the owner; both write nothing. -/
theorem debit_taken (W₀ : World) (r : DebitRequest)
    (htaken : (W₀.store.entryByKey? (debitKey r)).isSome) :
    ⦃fun W => ⌜W = W₀⌝⦄ debit r ⦃post⟨fun _ W => ⌜W = W₀⌝, fun _ W => ⌜W = W₀⌝⟩⦄ := by
  mvcgen [debit, amountOf, replayedFor, duplicateView]
  all_goals simp_all +zetaDelta [debitKey]

theorem transfer_taken (W₀ : World) (r : TransferRequest)
    (htaken : (W₀.store.entryByKey? (transferOutKey r)).isSome) :
    ⦃fun W => ⌜W = W₀⌝⦄ transfer r ⦃post⟨fun _ W => ⌜W = W₀⌝, fun _ W => ⌜W = W₀⌝⟩⦄ := by
  mvcgen [transfer, amountOf, replayedFor, duplicateView]
  all_goals simp_all +zetaDelta [transferOutKey]

end Wallets

/-- A replay by a caller who is no operator is refused first, and writes nothing. -/
theorem Reconcile.replay_needsAdmin (W₀ : World) (id : String) {admin : Actor}
    (hadmin : admin.isAdmin = false) :
    ⦃fun W => ⌜W = W₀⌝⦄ replay id admin ⦃post⟨fun _ _ => ⌜False⌝, fun _ W => ⌜W = W₀⌝⟩⦄ := by
  mvcgen [replay]
  all_goals simp_all +zetaDelta

/-! ## Each command's entries -/

namespace Command

section
variable {W : World}

/-- An entry of credit direction is authorized by its gate alone. -/
theorem authorized_of_credit {c : Command} {e : LedgerEntry} (hcredit : e.type.isCredit = true)
    (h : (e.source = .admin ∧
      ((∃ r, c = .credit r ∧ r.actor.isAdmin = true) ∨
        ∃ wallet amount reason admin,
          c = .manualCredit wallet amount reason admin ∧ admin.isAdmin = true)) ∨
      (e.source = .webhook ∧ e.providerEventId ≠ "" ∧
        ((∃ r, c = .credit r ∧ r.verified = true) ∨ (∃ ev, c = .process ev true) ∨
          ∃ id admin, c = .replayMissing id admin ∧ admin.isAdmin = true))) :
    c.Authorized W e := by
  refine ⟨fun hdebit => ?_, fun _ => .inr h⟩
  rw [hcredit] at hdebit
  cases hdebit

/-- A debit's entry is authorized: its caller owns the wallet it debits. -/
theorem DebitPosted.authorized {r : DebitRequest} {s' : Store}
    (h : Wallets.DebitPosted r W.store s') :
    ∃ e, (Command.debit r).Authorized W e ∧ s'.ledger = W.store.ledger ++ [e] := by
  obtain ⟨w, m, hw, howner, hp, he⟩ := h
  have hwallet : W.store.wallet? m.2.wallet = some w := by rw [he.wallet]; exact hw
  refine ⟨m.2, ⟨fun _ => .inl ⟨r, rfl, w, hwallet, howner⟩, fun hcredit => ?_⟩, hp.ledger⟩
  rcases he.type with htype | htype <;> rw [htype] at hcredit <;> cases hcredit

/-- A transfer's two legs are authorized: its caller owns the wallet it sends from. -/
theorem TransferPosted.authorized {r : TransferRequest} {s' : Store}
    (h : Wallets.TransferPosted r W.store s') :
    ∃ out inward, (Command.transfer r).Authorized W out ∧ (Command.transfer r).Authorized W inward ∧
      s'.ledger = W.store.ledger ++ [out, inward] := by
  obtain ⟨src, _, out, inward, _, hsrc, -, -, howner, -, hout, hin, hlegs⟩ := h
  have hsends : W.store.OwnedBy r.source r.actor.id := ⟨src, hsrc, howner⟩
  have hledger : s'.ledger = W.store.ledger ++ [out.2, inward.2] := by
    rw [hin.ledger, hout.ledger, List.append_assoc]
    rfl
  -- the debit leg leaves the source, the credit leg is paid from it
  refine ⟨out.2, inward.2, ⟨fun _ => .inr ⟨r, rfl, hlegs.outWallet, hsends⟩, fun hcredit => ?_⟩,
    ⟨fun hdebit => ?_, fun _ => .inl ⟨r, rfl, hsends⟩⟩, hledger⟩
  · rw [hlegs.outType] at hcredit
    cases hcredit
  · rw [hlegs.inType] at hdebit
    cases hdebit

end

/-- A credit whose key is taken leaves the world as it was. -/
theorem run_credit_taken {r : CreditRequest} {W : World}
    (htaken : (W.store.entryByKey? (Wallets.creditKey r)).isSome) : (Command.credit r).run W = W := by
  rw [run_credit]
  exact Op.world_of_ends (Wallets.credit_taken W r htaken) (· = W) rfl (fun _ _ h => h)
    (fun _ _ h => h)

/-- A debit whose key is taken leaves the world as it was. -/
theorem run_debit_taken {r : DebitRequest} {W : World}
    (htaken : (W.store.entryByKey? (Wallets.debitKey r)).isSome) : (Command.debit r).run W = W := by
  rw [run_debit]
  exact Op.world_of_ends (Wallets.debit_taken W r htaken) (· = W) rfl (fun _ _ h => h)
    (fun _ _ h => h)

/-- A transfer whose debit leg's key is taken leaves the world as it was. -/
theorem run_transfer_taken {r : TransferRequest} {W : World}
    (htaken : (W.store.entryByKey? (Wallets.transferOutKey r)).isSome) :
    (Command.transfer r).run W = W := by
  rw [run_transfer]
  exact Op.world_of_ends (Wallets.transfer_taken W r htaken) (· = W) rfl (fun _ _ h => h)
    (fun _ _ h => h)

/-- A replay by a caller who is no operator leaves the world as it was. -/
theorem run_replay_needsAdmin {id : String} {admin : Actor} (hadmin : admin.isAdmin = false)
    (W : World) : (Command.replayMissing id admin).run W = W := by
  rw [run, op, Op.exec_discard]
  exact Op.world_of_ends (Reconcile.replay_needsAdmin W id hadmin) (· = W) rfl
    (fun _ _ h => h.elim) (fun _ _ h => h)

/-- **Every entry a command appends is authorized** on the world it runs on. -/
theorem run_authorized (c : Command) (W : World) :
    ∃ es, (∀ e ∈ es, c.Authorized W e) ∧ (c.run W).store.ledger = W.store.ledger ++ es := by
  have hstep := run_step c W
  have none {s : Store} (hl : s.ledger = W.store.ledger) :
      ∃ es, (∀ e ∈ es, c.Authorized W e) ∧ s.ledger = W.store.ledger ++ es :=
    ⟨[], by simp, by rw [hl, List.append_nil]⟩
  have one {s : Store} {e : LedgerEntry} (he : c.Authorized W e)
      (hl : s.ledger = W.store.ledger ++ [e]) :
      ∃ es, (∀ e ∈ es, c.Authorized W e) ∧ s.ledger = W.store.ledger ++ es :=
    ⟨[e], by simpa using he, hl⟩
  cases c
  case debit r =>
    rcases hstep.1 with hk | hposted
    · exact none hk.ledger
    · obtain ⟨e, he, hl⟩ := DebitPosted.authorized hposted
      exact one he hl
  case transfer r =>
    rcases hstep.1 with hk | hposted
    · exact none hk.ledger
    · obtain ⟨out, inward, hout, hin, hl⟩ := TransferPosted.authorized hposted
      refine ⟨[out, inward], ?_, hl⟩
      simp only [List.mem_cons, List.not_mem_nil, or_false]
      rintro e (rfl | rfl)
      exacts [hout, hin]
  -- credits: each through the gate of its source
  case credit r =>
    rcases hstep.1 with hk | hposted
    · exact none hk.ledger
    · obtain ⟨e, he, hl⟩ := hposted.ledger
      refine one (authorized_of_credit he.credit ?_) hl
      rcases he.gate with ⟨hadmin, hactor⟩ | ⟨hwebhook, hverified, hevent⟩
      · exact .inl ⟨hadmin, .inl ⟨r, rfl, hactor⟩⟩
      · exact .inr ⟨hwebhook, hevent, .inl ⟨r, rfl, hverified⟩⟩
  case manualCredit wallet amount reason admin =>
    rcases hstep.1 with hk | hposted
    · exact none hk.ledger
    · obtain ⟨e, he, hl⟩ := hposted.ledger
      refine one (authorized_of_credit he.credit ?_) hl
      rcases he.gate with ⟨hadmin, hactor⟩ | ⟨-, hverified, -⟩
      · exact .inl ⟨hadmin, .inr ⟨wallet, amount, reason, admin, rfl, hactor⟩⟩
      · cases hverified
  case process ev verified =>
    rcases hstep.1 with hk | hprocessed
    · exact none hk.ledger
    · obtain rfl := hprocessed.1
      rcases hprocessed.ledger with hl | ⟨w, e, -, he, hl⟩
      · exact none hl
      · obtain ⟨hwebhook, hevent⟩ := he.webhook rfl
        exact one (authorized_of_credit he.credit (.inr ⟨hwebhook, hevent, .inr (.inl ⟨ev, rfl⟩)⟩)) hl
  -- a replay is refused before anything when its caller is no operator
  case replayMissing id admin =>
    cases hadmin : admin.isAdmin
    · rw [run_replay_needsAdmin hadmin]
      exact none rfl
    · rcases hstep.1 with hk | ⟨a, o, -, hposted⟩
      · exact none hk.ledger
      · obtain ⟨e, he, hl⟩ := hposted.ledger
        obtain ⟨hwebhook, hevent⟩ := he.webhook rfl
        exact one (authorized_of_credit he.credit
          (.inr ⟨hwebhook, hevent, .inr (.inr ⟨id, admin, rfl, hadmin⟩)⟩)) hl
  all_goals
    obtain ⟨es, happ, hl⟩ := hstep.appends
    simp only [Appends] at happ
    subst happ
    exact none (by rw [hl, List.append_nil])

end Command

/-- **Only authorized parties move money.** In every world a run of commands reaches
from an empty store, each ledger entry was appended by one of the run's commands whose
caller could write it, on the world that command ran on (`Command.Authorized`): an entry
of debit direction by a debit or a transfer of the wallet's owner; an entry of credit
direction by a transfer of the sending wallet's owner, by an operator's credit or manual
credit, or as a `webhook` entry with an event id by a credit of a verified report, a
verified payment or an operator's replay. The repeat checks, which answer before any
gate, never write: a credit, debit or transfer whose key is taken leaves every world as
it was. -/
theorem only_authorized_move_money (cs : List Command) (w : World) :
    let W₀ := { w with store := Store.empty }
    (∀ e ∈ (Command.runAll cs W₀).store.ledger, ∃ i c es, cs[i]? = some c ∧
      (Command.runAll (cs.take (i + 1)) W₀).store.ledger =
        (Command.runAll (cs.take i) W₀).store.ledger ++ es ∧ e ∈ es ∧
      c.Authorized (Command.runAll (cs.take i) W₀) e) ∧
    (∀ r W, (W.store.entryByKey? (Wallets.creditKey r)).isSome → (Command.credit r).run W = W) ∧
    (∀ r W, (W.store.entryByKey? (Wallets.debitKey r)).isSome → (Command.debit r).run W = W) ∧
    (∀ r W, (W.store.entryByKey? (Wallets.transferOutKey r)).isSome →
      (Command.transfer r).run W = W) := by
  intro W₀
  refine ⟨fun e he => ?_, fun _ _ => Command.run_credit_taken, fun _ _ => Command.run_debit_taken,
    fun _ _ => Command.run_transfer_taken⟩
  -- the command that appended `e`, and the entries it appended, which are authorized
  obtain ⟨i, c, es, hc, -, hl, hmem⟩ := Command.appended_of_mem (W := W₀) rfl he
  obtain ⟨es', hauth, hl'⟩ := Command.run_authorized c (Command.runAll (cs.take i) W₀)
  rw [← Command.runAll_take_succ hc, hl] at hl'
  obtain rfl := List.append_cancel_left hl'
  exact ⟨i, c, es, hc, hl, hmem, hauth e hmem⟩

end OnrampLedger
