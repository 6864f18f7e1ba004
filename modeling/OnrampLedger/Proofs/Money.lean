import OnrampLedger.Proofs.Steps

/-!
# What the engine promises about money

Two promises, each read off the triples of the operations.

From an empty store, every run of the engine, whatever its commands answer, ends with
balanced books (`Store.BooksBalance`): each wallet's cached balance is the credits less
the debits of its entries, its entries chain from zero, its balance is not below zero,
and every entry moves a positive amount of whole cents. The invariant carried is
`Books`. One step keeps it (`Command.Step.books`): the wallet operations, payments and
replays by what their one write does, and every other command because it writes neither
the ledger nor a balance. A run keeps it by `Command.runAll_invariant`.

A call that moves money and is refused leaves the money as it was, from any state: the
store is the one it found, except that a refused payment has its failure written on its
row. A transfer is all or nothing: answered, it has committed both its legs.

## Main results

* `Command.Step.books` — one step of the engine keeps the books.
* `Command.runAll_booksBalance` — every run from an empty store ends with balanced books.
* `refusals_keep_money` — refused money calls leave the store; transfers commit both
  legs or none.
-/

namespace OnrampLedger

open Std.Do

set_option mvcgen.warning false

/-! ## One command keeps the books -/

theorem Store.Kept.books {s s' : Store} (h : s.Kept s') (hb : Books s.wallets s.ledger) :
    Books s'.wallets s'.ledger := by
  rw [h.ledger]
  refine hb.of_balances ?_
  have := congrArg (List.map fun m : String × String × String × Decimal => (m.1, m.2.2.2))
    h.wallets
  simpa [Function.comp_def, Wallet.money] using this

theorem Store.Opened.books {user : String} {i : Nat} {s s' : Store} {w : Wallet}
    (h : s.Opened user i w s') (hb : Books s.wallets s.ledger) : Books s'.wallets s'.ledger := by
  rw [h.wallets, h.ledger]
  exact hb.addWallet h.fresh h.balance

namespace Wallets

theorem CreditPosted.books {r : CreditRequest} {s s' : Store} (h : CreditPosted r s s')
    (hb : Books s.wallets s.ledger) : Books s'.wallets s'.ledger := by
  obtain ⟨w, m, hw, hp, he⟩ := h
  exact hb.posted hw hp he.cents

theorem DebitPosted.books {r : DebitRequest} {s s' : Store} (h : DebitPosted r s s')
    (hb : Books s.wallets s.ledger) : Books s'.wallets s'.ledger := by
  obtain ⟨w, m, hw, -, hp, he⟩ := h
  exact hb.posted hw hp he.cents

/-- The credit leg finds its wallet as the debit leg left it: the two wallets differ. -/
theorem TransferPosted.books {r : TransferRequest} {s s' : Store} (h : TransferPosted r s s')
    (hb : Books s.wallets s.ledger) : Books s'.wallets s'.ledger := by
  obtain ⟨src, dst, out, inward, s₁, hsrc, hdst, hdiff, -, -, hout, hin, hlegs⟩ := h
  have hdst₁ : s₁.wallet? r.target = some dst := by
    rw [hout.wallet?_of_ne (by rw [Store.id_of_wallet? hsrc]; exact Ne.symm hdiff)]
    exact hdst
  have hout_cents : out.2.amount.IsPositive ∧ out.2.amount.HasCents := by
    rw [hlegs.outAmount]
    exact hlegs.cents
  have hin_cents : inward.2.amount.IsPositive ∧ inward.2.amount.HasCents := by
    rw [hlegs.inAmount]
    exact hlegs.cents
  exact (hb.posted hsrc hout hout_cents).posted hdst₁ hin hin_cents

end Wallets

theorem Intake.Processed.books {ev : PaymentEvent} {verified : Bool} {i i' : Nat} {s s' : Store}
    (h : Processed ev verified i i' s s') (hb : Books s.wallets s.ledger) :
    Books s'.wallets s'.ledger := by
  obtain ⟨-, -, -, -, -, ⟨_, hsettled⟩ | ⟨_, _, -, -, hrecorded⟩⟩ := h
  · exact hsettled.books hb
  · obtain ⟨hw, hl⟩ := hrecorded.written.money
    rwa [hw, hl]

namespace Command

/-- **One step keeps the books**, whatever the command answered. -/
theorem Step.books {c : Command} {W W' : World} (h : c.Step W W')
    (hb : Books W.store.wallets W.store.ledger) : Books W'.store.wallets W'.store.ledger := by
  obtain ⟨heffect, -, -⟩ := h
  cases c
  -- the retry pipeline writes payment rows and dead letters only
  case retryCycle =>
    obtain ⟨-, -, _, hstore, -⟩ := heffect
    rw [hstore]
    exact hb
  case retryDeadLetter => rcases heffect with rfl | ⟨_, _, _, _, _, _, rfl⟩ <;> exact hb
  case resolveDeadLetter => rcases heffect with rfl | ⟨_, _, _, _, rfl⟩ <;> exact hb
  case archiveDeadLetter => rcases heffect with rfl | ⟨_, _, _, rfl⟩ <;> exact hb
  -- every other command keeps the four tables or does its one write
  case createWallet => rcases heffect with hkept | ⟨_, hopened⟩
                       exacts [hkept.books hb, hopened.books hb]
  case replayMissing => rcases heffect with hkept | ⟨_, _, _, hposted⟩
                        exacts [hkept.books hb, hposted.books hb]
  all_goals first
    | exact heffect.books hb
    | rcases heffect with hkept | hwrite
      exacts [hkept.books hb, hwrite.books hb]

theorem books_run (c : Command) {w : World} (h : Books w.store.wallets w.store.ledger) :
    Books (c.run w).store.wallets (c.run w).store.ledger :=
  (run_step c w).books h

theorem books_runAll (cs : List Command) (w : World) :
    Books (runAll cs { w with store := Store.empty }).store.wallets
      (runAll cs { w with store := Store.empty }).store.ledger :=
  @runAll_invariant (fun w => Books w.store.wallets w.store.ledger) (fun _ => True)
    (fun c _ _ h => books_run c h) cs (fun _ _ => trivial) _ Books.empty

/-- **Balanced books**: from an empty store, whatever the clock, the settings and the
ids already drawn, every run of commands, each answered or refused, ends with balanced
books. -/
theorem runAll_booksBalance (cs : List Command) (w : World) :
    (runAll cs { w with store := Store.empty }).store.BooksBalance :=
  (books_runAll cs w).booksBalance

end Command

/-- **Refusals leave the money alone.** A refused credit, debit, transfer, manual credit
or replay leaves the store exactly as it found it. A refused payment leaves the store as
it found it, or with only its failure written: its row marked failed with the refusal's
text, over its earlier row or as a new one, and possibly a `webhook_failures` alert. And
a transfer is never half done: answered, it was a repeat that wrote nothing or it
committed both its legs. -/
theorem refusals_keep_money :
    (∀ (r : CreditRequest) (w : World), Op.Ends (fun _ _ => True)
      (fun _ w' => w'.store = w.store) ((Wallets.credit r).exec w)) ∧
    (∀ (r : DebitRequest) (w : World), Op.Ends (fun _ _ => True)
      (fun _ w' => w'.store = w.store) ((Wallets.debit r).exec w)) ∧
    (∀ (r : TransferRequest) (w : World),
      Op.Ends (fun _ w' => w'.store = w.store ∨ TransferCommitted r w.store w'.store)
        (fun _ w' => w'.store = w.store) ((Wallets.transfer r).exec w)) ∧
    (∀ (wallet : String) (amount : Decimal) (reason : String) (admin : Actor) (w : World),
      Op.Ends (fun _ _ => True) (fun _ w' => w'.store = w.store)
        ((Wallets.manualCredit wallet amount reason admin).exec w)) ∧
    (∀ (id : String) (admin : Actor) (w : World), Op.Ends (fun _ _ => True)
      (fun _ w' => w'.store = w.store) ((Reconcile.replay id admin).exec w)) ∧
    (∀ (ev : PaymentEvent) (verified : Bool) (w : World), Op.Ends (fun _ _ => True)
      (fun e w' => w'.store = w.store ∨
        ∃ fresh, w.store.FailureWritten ev (w.store.webhookByExternal? ev.externalId) fresh
          e.message w'.store)
      ((Intake.process ev verified).exec w)) := by
  -- each part is one operation's triple, from the store the call finds
  have answered {α : Type} {Q : α → World → Prop} : ∀ a w, Q a w → True := fun _ _ _ => trivial
  have same {E : Error → World → Prop} : ∀ e w, E e w → E e w := fun _ _ h => h
  refine ⟨fun r w => ?_, fun r w => ?_, fun r w => ?_, fun wallet amount reason admin w => ?_,
    fun id admin w => ?_, fun ev verified w => ?_⟩
  · exact (Op.ends_of_triple (Wallets.credit_spec w.store r) rfl).mono answered same
  · exact (Op.ends_of_triple (Wallets.debit_spec w.store r) rfl).mono answered same
  · exact (Op.ends_of_triple (Wallets.transfer_spec w.store r) rfl).mono (fun _ _ h => h.2) same
  · exact (Op.ends_of_triple (Wallets.manualCredit_spec w.store wallet amount reason admin)
      rfl).mono answered same
  · exact (Op.ends_of_triple (Reconcile.replay_spec w.store id admin) rfl).mono answered same
  · exact (Op.ends_of_triple (Intake.process_spec w.store ev verified) rfl).mono answered same

end OnrampLedger
