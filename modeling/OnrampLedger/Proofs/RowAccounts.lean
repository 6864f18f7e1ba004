import OnrampLedger.Proofs.PaymentCredits

/-!
# What a payment's row counts

The row of a payment carries two things its history decides: the number of attempts the
retry cycles made on it (`retryCount`) and the text of the refusal that failed it
(`errorMessage`). Along a run of the engine, one command at a time, both are exactly what
the run did to the payment:

* the count is the number of retry cycles that took the row up since the row was made or
  since an operator last sent it back from the dead letters;
* the text is that of the refusal of the last processing that took the payment up, and
  empty once a processing settled it.

A processing *takes the payment up* when it gets past the checks made before its
transaction (`Intake.takesUp`): a report that is unverified, not completed or without its
ids, or of a payment whose row is processed or dead-lettered, writes nothing. So a
payment's row keeps the text of its last refusal while later reports of it are turned
away before their transaction.

`RowAccount.next` keeps that count and that text for one payment, command by command,
from what each command answered and from the rows a retry cycle takes up;
`RowAccount.along` runs it along a run. `World.Accounted` says the payment's row shows
its account, and every step keeps it.

## Main results

* `Intake.process_rows` — what processing writes on the payment rows, with the text its
  answer leaves.
* `Command.accounted_step` — one step keeps the account of a payment's row.
* `payment_rows_accounted` — along every run from an empty store, the row of every
  payment shows its account.
-/

namespace OnrampLedger

open Std.Do

set_option mvcgen.warning false

/-! ## What processing writes on the payment rows -/

namespace Intake

/-- Whether processing takes payment `ev` up, past the checks made before its
transaction: a verified report of a completed payment with its ids, whose row, if it has
one, is neither processed nor dead-lettered. -/
def takesUp (ev : PaymentEvent) (verified : Bool) (s : Store) : Bool :=
  verified && ev.status == completedStatus && ev.externalId != "" && ev.userId != "" &&
    (s.webhookByExternal? ev.externalId).all fun p =>
      p.status != .processed && p.status != .deadLetter

/-- The text a processing's answer leaves on the payment's row: the refusal's message, or
none when the payment was settled. -/
def outcomeText {α : Type} : Except Error α → String
  | .ok _ => ""
  | .error e => e.message

/-- The row processing writes for payment `ev`, over its earlier row `prior` or as a new
row, with the text `message`: under the earlier row's id and payment id, with its count of
attempts, or with none counted on a new row. -/
structure RowWritten (ev : PaymentEvent) (prior : Option WebhookEvent) (message : String)
    (row : WebhookEvent) : Prop where
  externalId : row.externalId = (prior.map (·.externalId)).getD ev.externalId
  id : ∀ p, prior = some p → row.id = p.id
  retryCount : row.retryCount = (prior.map (·.retryCount)).getD 0
  errorMessage : row.errorMessage = message

/-- The payment rows `rows` after processing `ev` from store `s` left the text `message`:
when the processing took the payment up, its row written with that text over its earlier
row or as a new one; otherwise the rows as they were. -/
def RowsAfter (ev : PaymentEvent) (verified : Bool) (s : Store) (message : String)
    (rows : List WebhookEvent) : Prop :=
  if takesUp ev verified s then
    ∃ row, RowWritten ev (s.webhookByExternal? ev.externalId) message row ∧
      rows = s.webhooksWith (s.webhookByExternal? ev.externalId) row
  else rows = s.webhooks

end Intake

/-- A settled payment's row is written with no text. -/
theorem Store.Settled.rowWritten {ev : PaymentEvent} {prior : Option WebhookEvent}
    {wallet? : Option Wallet} {i i' : Nat} {s s' : Store} {change : Option Mutation}
    (h : s.Settled ev prior wallet? i i' change s') :
    ∃ row, Intake.RowWritten ev prior "" row ∧ s'.webhooks = s.webhooksWith prior row := by
  obtain ⟨_, -, _, _, -, -, -, -, k, row, -, -, hrow, hh⟩ := h
  exact ⟨row, ⟨hrow.externalId, fun p hp => by rw [hrow.id, hp]; rfl, hrow.retryCount,
    hrow.errorMessage⟩, hh⟩

/-- A failed payment's row is written with the refusal's text. -/
theorem Store.FailureRecorded.rowWritten {ev : PaymentEvent} {prior : Option WebhookEvent}
    {fresh message : String} {s s' : Store} (h : s.FailureRecorded ev prior fresh message s') :
    ∃ row, Intake.RowWritten ev prior message row ∧ s'.webhooks = s.webhooksWith prior row := by
  obtain ⟨row, hfailed, -, hmsg, hext, hid, hS⟩ := h
  refine ⟨row, ⟨hext, fun p hp => by rw [hid, hp]; rfl, hfailed.retryCount, hmsg⟩, ?_⟩
  rcases hS with hS | ⟨_, -, hS⟩ <;> rw [hS]

namespace Intake

/-- **What processing writes on the payment rows**: a processing that takes the payment up
writes its row, with no text when it settles the payment and with the refusal's text when
it fails; any other leaves the rows as they were. -/
theorem process_rows (W₀ : World) (ev : PaymentEvent) (verified : Bool) :
    ⦃fun W => ⌜W = W₀⌝⦄ process ev verified
    ⦃post⟨fun _ W => ⌜RowsAfter ev verified W₀.store "" W.store.webhooks⌝,
      fun e W => ⌜RowsAfter ev verified W₀.store e.message W.store.webhooks⌝⟩⦄ := by
  mvcgen [process]
  all_goals simp_all +zetaDelta [RowsAfter, takesUp, World.records]
  -- over the earlier row: settled, or its failure recorded
  case vc4 =>
    rename_i hsettled _
    exact hsettled.1.rowWritten
  case vc5 =>
    rename_i hrecorded
    exact hrecorded.1.rowWritten
  -- as a new row, when the payment had none
  case vc6 =>
    rename_i hnone _ hsettled _
    obtain rfl := Option.eq_none_iff_forall_ne_some.mpr hnone
    simpa using hsettled.1.rowWritten
  case vc7 =>
    rename_i hnone _ _ hrecorded
    obtain rfl := Option.eq_none_iff_forall_ne_some.mpr hnone
    simpa using hrecorded.1.rowWritten

/-- Processing from world `W` leaves on the payment rows the text its answer gives. -/
theorem process_rowsAfter (ev : PaymentEvent) (verified : Bool) (W : World) :
    RowsAfter ev verified W.store (outcomeText ((process ev verified).exec W).1)
      ((process ev verified).exec W).2.store.webhooks := by
  have hend := Op.ends_of_triple (process_rows W ev verified) rfl
  revert hend
  rcases (process ev verified).exec W with ⟨_ | _, W'⟩ <;> exact id

end Intake

/-! ## Looking a payment's row up -/

section
variable {s s' : Store} {X Y : String} {row r : WebhookEvent}

/-- With distinct payment ids, a payment id finds its one row. -/
theorem Store.webhookByExternal?_eq_some_iff (hext : (s.webhooks.map (·.externalId)).Nodup) :
    s.webhookByExternal? X = some r ↔ r ∈ s.webhooks ∧ r.externalId = X := by
  constructor
  · intro h
    exact ⟨List.mem_of_find?_eq_some h, Store.externalId_of_webhookByExternal? h⟩
  · rintro ⟨hr, rfl⟩
    exact find?_key_of_mem hext hr

/-- Writing the row of payment `X`, over its earlier row or as its first, makes the row
what `X` finds, and leaves what every other payment id finds. -/
theorem Store.webhookByExternal?_webhooksWith (hext : (s.webhooks.map (·.externalId)).Nodup)
    (hids : (s.webhooks.map (·.id)).Nodup) (hrow : row.externalId = X)
    (hid : ∀ p, s.webhookByExternal? X = some p → row.id = p.id)
    (h : s'.webhooks = s.webhooksWith (s.webhookByExternal? X) row) :
    s'.webhookByExternal? X = some row ∧
      ∀ Y, Y ≠ X → s'.webhookByExternal? Y = s.webhookByExternal? Y := by
  have hext' : (s'.webhooks.map (·.externalId)).Nodup := by
    rw [h]
    exact Store.externalIds_webhooksWith hext hids hrow hid
  have hmem : ∀ r, r ∈ s'.webhooks ↔ r = row ∨ (r ∈ s.webhooks ∧ r.externalId ≠ X) := by
    intro r
    rw [h]
    exact Store.mem_webhooksWith_iff hext hids hrow hid
  refine ⟨(Store.webhookByExternal?_eq_some_iff hext').mpr ⟨(hmem row).mpr (.inl rfl), hrow⟩,
    fun Y hY => Option.ext fun r => ?_⟩
  rw [Store.webhookByExternal?_eq_some_iff hext', Store.webhookByExternal?_eq_some_iff hext, hmem]
  constructor
  · rintro ⟨rfl | ⟨hr, -⟩, hrY⟩
    · exact absurd (hrY.symm.trans hrow) hY
    · exact ⟨hr, hrY⟩
  · rintro ⟨hr, hrY⟩
    exact ⟨.inr ⟨hr, hrY ▸ hY⟩, hrY⟩

end

/-! ## The account of a payment's row -/

namespace Retry

theorem attempt_retryCount (max : Int) (now : Instant) (e : WebhookEvent) :
    (attempt max now e).retryCount = e.retryCount + 1 := by
  by_cases h : (e.retryCount : Int) + 1 < max
  · rw [attempt_of_lt h]
  · rw [attempt_of_le (not_lt.mp h)]

theorem attempt_errorMessage (max : Int) (now : Instant) (e : WebhookEvent) :
    (attempt max now e).errorMessage = e.errorMessage := by
  by_cases h : (e.retryCount : Int) + 1 < max
  · rw [attempt_of_lt h]
  · rw [attempt_of_le (not_lt.mp h)]

/-- What an operator's send-back answers: the row it wrote back, with no attempts counted,
over a row of the same id, payment id and text. -/
theorem retryDeadLetter_row (W₀ : World) (id : String) (admin : Actor) :
    ⦃fun W => ⌜W = W₀⌝⦄ retryDeadLetter id admin
    ⦃post⟨fun e W => ⌜W.store.webhooks = (W₀.store.putWebhook e).webhooks ∧ e.retryCount = 0 ∧
        ∃ e₀ ∈ W₀.store.webhooks, e₀.id = e.id ∧ e₀.externalId = e.externalId ∧
          e₀.errorMessage = e.errorMessage⌝,
      fun _ W => ⌜W = W₀⌝⟩⦄ := by
  unfold retryDeadLetter
  mvcgen [item]
  all_goals simp_all +zetaDelta [Store.putWebhook, Store.putDeadLetter]
  rename_i hrow _ _
  exact ⟨_, List.mem_of_find?_eq_some hrow, rfl, rfl, rfl⟩

end Retry

/-- What a run has counted on the row of one payment: the attempts the retry cycles made
on it since it was made or last sent back, and the text of the refusal of the last
processing that took the payment up, none once a processing settled it. -/
structure RowAccount where
  retries : Nat
  message : String
  deriving DecidableEq, Repr

namespace RowAccount

/-- The account of a payment before its first row. -/
def start : RowAccount := ⟨0, ""⟩

/-- The account of the row of payment `x` after command `c` ran on world `W`: a
processing that takes the payment up leaves its answer's text; a retry cycle that takes
the row up counts one attempt more; an operator's send-back that answers with the row
counts none again. -/
def next (x : String) (W : World) (a : RowAccount) : Command → RowAccount
  | .process ev verified =>
    if ev.externalId = x ∧ Intake.takesUp ev verified W.store = true then
      { a with message := Intake.outcomeText ((Intake.process ev verified).exec W).1 }
    else a
  | .retryCycle =>
    if (Retry.due W.settings.retryBatch W.store.webhooks).any (·.externalId == x) then
      { a with retries := a.retries + 1 }
    else a
  | .retryDeadLetter id admin =>
    match ((Retry.retryDeadLetter id admin).exec W).1 with
    | .ok e => if e.externalId = x then { a with retries := 0 } else a
    | .error _ => a
  | _ => a

/-- The account along a run from world `W`. -/
def along (x : String) : List Command → World → RowAccount → RowAccount
  | [], _, a => a
  | c :: cs, W, a => along x cs (c.run W) (a.next x W c)

end RowAccount

/-- The row of payment `x` shows the account `a`: its count of attempts and its text; and
before the payment has a row, no attempt is counted. -/
structure World.Accounted (x : String) (a : RowAccount) (W : World) : Prop where
  row : ∀ r, W.store.webhookByExternal? x = some r →
    r.retryCount = a.retries ∧ r.errorMessage = a.message
  none : W.store.webhookByExternal? x = none → a.retries = 0

namespace World.Accounted

variable {x : String} {a : RowAccount} {W : World}

theorem start (W : World) (hW : W.store.webhooks = []) : W.Accounted x RowAccount.start :=
  ⟨fun r hr => by simp [Store.webhookByExternal?, hW] at hr, fun _ => rfl⟩

/-- The account reads the payment's row only. -/
theorem of_lookup {W' : World} (h : W.Accounted x a)
    (hl : W'.store.webhookByExternal? x = W.store.webhookByExternal? x) : W'.Accounted x a :=
  ⟨fun r hr => h.row r (hl ▸ hr), fun hr => h.none (hl ▸ hr)⟩

variable (hf : W.Fresh) (hext : (W.store.webhooks.map (·.externalId)).Nodup)
include hf hext

/-- A processing of the payment that takes it up writes its row with its answer's text
and keeps its count; any other processing leaves the row. -/
theorem process (h : W.Accounted x a) (ev : PaymentEvent) (verified : Bool) :
    ((Command.process ev verified).run W).Accounted x
      (a.next x W (.process ev verified)) := by
  have hrun : (Command.process ev verified).run W = ((Intake.process ev verified).exec W).2 :=
    Op.exec_discard _ _
  have hafter := Intake.process_rowsAfter ev verified W
  rw [hrun]
  by_cases ht : Intake.takesUp ev verified W.store = true
  · rw [Intake.RowsAfter, if_pos ht] at hafter
    obtain ⟨row, hrow, hrows⟩ := hafter
    have hlook := Store.webhookByExternal?_webhooksWith hext hf.webhooks.nodup
      (hrow.externalId.trans (Store.externalId_getD _ _)) hrow.id hrows
    by_cases hx : ev.externalId = x
    · subst hx
      have hcount : row.retryCount = a.retries := by
        rw [hrow.retryCount]
        cases hp : W.store.webhookByExternal? ev.externalId with
        | none => exact (h.none hp).symm
        | some p => exact (h.row p hp).1
      refine ⟨fun r hr => ?_, fun hr => ?_⟩
      · rw [hlook.1] at hr
        cases hr
        simp only [RowAccount.next, true_and, ht, if_true]
        exact ⟨hcount, hrow.errorMessage⟩
      · rw [hlook.1] at hr
        cases hr
    · simp only [RowAccount.next, hx, false_and, if_false]
      exact h.of_lookup (hlook.2 x (Ne.symm hx))
  · rw [Intake.RowsAfter, if_neg ht] at hafter
    simp only [RowAccount.next, ht, Bool.false_eq_true, and_false, if_false]
    apply h.of_lookup
    simp only [Store.webhookByExternal?, hafter]

/-- A retry cycle counts one attempt more on the payment's row exactly when it takes the
row up. -/
theorem retryCycle (h : W.Accounted x a) :
    (Command.retryCycle.run W).Accounted x (a.next x W .retryCycle) := by
  have hcyc : Retry.Cycled W (Retry.due W.settings.retryBatch W.store.webhooks)
      (Command.retryCycle.run W) := (Command.run_step .retryCycle W).1
  have hsub := Retry.due_sublist W.settings.retryBatch W.store.webhooks
  -- the cycle attempts the rows it takes up and keeps every row's payment id
  have hlook : (Command.retryCycle.run W).store.webhookByExternal? x =
      (W.store.webhookByExternal? x).map fun r =>
        if r.id ∈ (Retry.due W.settings.retryBatch W.store.webhooks).map (·.id)
        then Retry.attempt W.settings.maxRetries W.now r else r := by
    simp only [Store.webhookByExternal?, hcyc.webhooks_eq hf, List.find?_map]
    congr 2
    funext r
    simp only [Function.comp]
    split <;> simp [Retry.attempt_externalId]
  -- a row of the payment among those taken up is the payment's row
  have hany : (Retry.due W.settings.retryBatch W.store.webhooks).any (·.externalId == x) =
      true ↔ ∃ r, W.store.webhookByExternal? x = some r ∧
        r.id ∈ (Retry.due W.settings.retryBatch W.store.webhooks).map (·.id) := by
    simp only [List.any_eq_true, beq_iff_eq]
    constructor
    · rintro ⟨e, he, rfl⟩
      exact ⟨e, (Store.webhookByExternal?_eq_some_iff hext).mpr ⟨hsub.subset he, rfl⟩,
        List.mem_map_of_mem he⟩
    · rintro ⟨r, hr, hin⟩
      obtain ⟨hmem, rfl⟩ := (Store.webhookByExternal?_eq_some_iff hext).mp hr
      exact ⟨r, mem_of_key_mem hsub hf.webhooks.nodup hmem hin, rfl⟩
  cases hr : W.store.webhookByExternal? x with
  | none =>
    have hno : (Retry.due W.settings.retryBatch W.store.webhooks).any (·.externalId == x) =
        false := by
      rw [Bool.eq_false_iff]
      intro htrue
      obtain ⟨r, hr', -⟩ := hany.mp htrue
      rw [hr] at hr'
      cases hr'
    simp only [RowAccount.next, hno]
    exact h.of_lookup (by rw [hlook, hr, Option.map_none])
  | some r =>
    have hrow := h.row r hr
    by_cases hin : r.id ∈ (Retry.due W.settings.retryBatch W.store.webhooks).map (·.id)
    · simp only [RowAccount.next, hany.mpr ⟨r, hr, hin⟩, if_true]
      refine ⟨fun r' hr' => ?_, fun hr' => ?_⟩ <;> rw [hlook, hr] at hr' <;>
        simp only [Option.map_some, if_pos hin, Option.some.injEq, reduceCtorEq] at hr'
      rw [← hr', Retry.attempt_retryCount, Retry.attempt_errorMessage]
      exact ⟨congrArg (· + 1) hrow.1, hrow.2⟩
    · have hno : (Retry.due W.settings.retryBatch W.store.webhooks).any (·.externalId == x) =
          false := by
        rw [Bool.eq_false_iff]
        intro htrue
        obtain ⟨r', hr', hin'⟩ := hany.mp htrue
        rw [hr] at hr'
        cases hr'
        exact hin hin'
      simp only [RowAccount.next, hno]
      exact h.of_lookup (by rw [hlook, hr, Option.map_some, if_neg hin])

/-- An operator's send-back answered with the payment's row counts no attempt on it; any
other leaves the row. -/
theorem retryDeadLetter (h : W.Accounted x a) (id : String) (admin : Actor) :
    ((Command.retryDeadLetter id admin).run W).Accounted x
      (a.next x W (.retryDeadLetter id admin)) := by
  have hrun : (Command.retryDeadLetter id admin).run W =
      ((Retry.retryDeadLetter id admin).exec W).2 := Op.exec_discard _ _
  have hend := Op.ends_of_triple (Retry.retryDeadLetter_row W id admin) rfl
  rw [hrun]
  simp only [RowAccount.next]
  revert hend
  rcases (Retry.retryDeadLetter id admin).exec W with ⟨_ | e, W'⟩
  · intro hW'
    rw [Op.ends_error] at hW'
    rw [hW']
    exact h
  · rintro ⟨hrows, hcount, e₀, he₀, hid, hexte, hmsg⟩
    -- the row written back is the payment's row of `e`, over its earlier row `e₀`
    have hprior : W.store.webhookByExternal? e.externalId = some e₀ :=
      (Store.webhookByExternal?_eq_some_iff hext).mpr ⟨he₀, hexte⟩
    have hlook := Store.webhookByExternal?_webhooksWith hext hf.webhooks.nodup rfl
      (fun p hp => by rw [hprior] at hp; cases hp; exact hid.symm)
      (show W'.store.webhooks = _ by rw [hrows, hprior]; rfl)
    by_cases hx : e.externalId = x
    · subst hx
      simp only [if_true]
      have hmsg' : e.errorMessage = a.message := hmsg ▸ (h.row e₀ hprior).2
      refine ⟨fun r hr => ?_, fun _ => rfl⟩
      rw [hlook.1] at hr
      cases hr
      exact ⟨hcount, hmsg'⟩
    · simp only [hx, if_false]
      exact h.of_lookup (hlook.2 x (Ne.symm hx))

end World.Accounted

namespace Command

/-- Every command other than processing, a retry cycle and a send-back leaves the payment
rows as they were. -/
theorem webhooks_run_of_ne {c : Command} {W : World} (hp : ∀ ev v, c ≠ .process ev v)
    (hr : c ≠ .retryCycle) (hd : ∀ id admin, c ≠ .retryDeadLetter id admin) :
    (c.run W).store.webhooks = W.store.webhooks := by
  rcases (run_step c W).rows with ⟨hw, -⟩ | ⟨ev, v, _, hc, -⟩ | ⟨hc, -⟩ | ⟨id, admin, hc, -⟩ |
    ⟨_, _, _, _, -, hres⟩ | ⟨_, _, -, harch⟩
  · exact hw
  · exact absurd hc (hp ev v)
  · exact absurd hc hr
  · exact absurd hc (hd id admin)
  · obtain ⟨_, _, -, -, hW⟩ := hres
    rw [hW]
    rfl
  · obtain ⟨_, -, -, hW⟩ := harch
    rw [hW]
    rfl

/-- **One step keeps the account of a payment's row.** -/
theorem accounted_step (c : Command) {W : World} {x : String} {a : RowAccount}
    (hf : W.Fresh) (hext : (W.store.webhooks.map (·.externalId)).Nodup)
    (h : W.Accounted x a) : (c.run W).Accounted x (a.next x W c) := by
  cases c
  case process ev verified => exact h.process hf hext ev verified
  case retryCycle => exact h.retryCycle hf hext
  case retryDeadLetter id admin => exact h.retryDeadLetter hf hext id admin
  all_goals
    exact h.of_lookup (by
      simp only [Store.webhookByExternal?]
      rw [webhooks_run_of_ne (by simp) (by simp) (by simp)])

/-- Along every run that draws fewer than `2 ^ 48` ids, from a world whose ids are drawn
once and whose payment ids are distinct, the row of a payment keeps its account. -/
theorem accounted_along (cs : List Command) {W : World} {x : String} {a : RowAccount}
    (hf : W.Fresh) (hext : (W.store.webhooks.map (·.externalId)).Nodup)
    (h : W.Accounted x a) (hbound : (runAll cs W).issued < 2 ^ 48) :
    (runAll cs W).Accounted x (RowAccount.along x cs W a) := by
  -- induction on the run, carrying the ids and the payment ids along with the account
  induction cs generalizing W a with
  | nil => exact h
  | cons c cs ih =>
    have hc : (c.run W).issued < 2 ^ 48 := lt_of_le_of_lt (issued_le_runAll cs _) hbound
    exact ih (hf.step (run_step c W) hc) ((run_step c W).externalIds_nodup hf hext)
      (accounted_step c hf hext h) hbound

end Command

/-- **Payment rows count what happened to them.** Along every run from an empty store
(fewer than `2 ^ 48` ids drawn), the row of every payment `x` has as its count of
attempts the number of retry cycles that took it up since it was made or an operator last
sent it back, and as its text that of the refusal of the last processing that took the
payment up, empty once one settled it. -/
theorem payment_rows_accounted (cs : List Command) (w : World)
    (hbound : (Command.runAll cs { w with store := Store.empty }).issued < 2 ^ 48) (x : String) :
    let a := RowAccount.along x cs { w with store := Store.empty } RowAccount.start
    ∀ r, (Command.runAll cs { w with store := Store.empty }).store.webhookByExternal? x = some r →
      r.retryCount = a.retries ∧ r.errorMessage = a.message :=
  (Command.accounted_along cs (World.fresh_empty w) List.nodup_nil
    (World.Accounted.start _ rfl) hbound).row

/-- A payment refused for a currency its wallet does not hold, taken up once by a retry
cycle, then reported again without its user: its row counts the one attempt, and keeps
the first refusal's text, which the second report, turned away before its transaction,
does not replace. -/
theorem payment_rows_accounted_refusedTwice :
    let ev : PaymentEvent := ⟨"moonpay", "x", "u", 10, "EUR", completedStatus, "h"⟩
    let cs : List Command :=
      [.createWallet "u" "USD", .process ev true, .retryCycle, .process { ev with userId := "" } true]
    let w := Setup.world {}
    (Command.runAll cs { w with store := Store.empty }).issued < 2 ^ 48 ∧
      ((Command.runAll cs { w with store := Store.empty }).store.webhookByExternal? "x").map
        (fun r => (r.retryCount, r.errorMessage)) =
        some (1, "event currency EUR does not match wallet currency USD") := by
  intro ev cs w
  have hbound : (Command.runAll cs { w with store := Store.empty }).issued < 2 ^ 48 := by
    decide +kernel
  have hacc : RowAccount.along "x" cs { w with store := Store.empty } RowAccount.start =
      ⟨1, "event currency EUR does not match wallet currency USD"⟩ := by
    decide +kernel
  refine ⟨hbound, ?_⟩
  cases hr : (Command.runAll cs { w with store := Store.empty }).store.webhookByExternal? "x" with
  | none => exact absurd hr (by decide +kernel)
  | some r =>
    have hrow := payment_rows_accounted cs w hbound "x" r hr
    rw [hacc] at hrow
    rw [Option.map_some, hrow.1, hrow.2]

end OnrampLedger
