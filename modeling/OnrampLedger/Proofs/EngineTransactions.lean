import OnrampLedger.Proofs.Serializable

/-!
# The engine's transactions run together

Every transaction of the engine keeps the discipline of `Tx.Disciplined`, so every run of
any number of them, under any schedule, is serializable.

The transactions are built from a few pieces, and each piece gets a lemma in the style
of a bind rule: the piece is disciplined whenever its continuation is, from every state
that may follow it. A state `t'` follows `t` (`TxState.Follows`) when it keeps `t`'s
locks, readings and writes, guards every reading it added with its own writes, copies
only rows it locked, and wrote no payment row. Locking a wallet
(`disciplined_lockWallet`), locking several (`disciplined_lockEach`), and a credit
inside a transaction (`disciplined_creditIn`) each lead to states that follow; a key
found free is followed, within the piece, by the entry written under it, whose check
guards it. Each transaction then chains these pieces and checks the few calls that are
its own: the payment row written at the end of processing, and the flags.

## Main results

* `EngineTx.disciplined_body` — every engine transaction is disciplined, having drawn
  the id of the new payment row it may write.
-/

namespace OnrampLedger

/-! ## States that follow -/

/-- `t'` comes after `t` in a transaction that has not written a payment row since: it
keeps `t`'s locks, readings and writes, every reading it added is guarded by its writes,
it holds copies only of rows it locked, and its new writes are not to payment rows. -/
structure TxState.Follows (t t' : TxState) : Prop where
  held : t.held ⊆ t'.held
  seen : t.seen ⊆ t'.seen
  writes : t.writes ⊆ t'.writes
  covered : ∀ r ∈ t'.seen, r ∈ t.seen ∨ r.CoveredBy t'.writes
  cache : ∀ w ∈ t'.cache, w.id ∈ t'.held
  events : ∀ w ∈ t'.writes, w ∉ t.writes → w.touchesEvents = false

namespace TxState.Follows

variable {t t' t'' : TxState}

theorem refl (hcache : ∀ w ∈ t.cache, w.id ∈ t.held) : t.Follows t :=
  ⟨fun _ h => h, fun _ h => h, fun _ h => h, fun _ h => .inl h, hcache, fun _ h h' => absurd h h'⟩

theorem trans (h : t.Follows t') (h' : t'.Follows t'') : t.Follows t'' where
  held _ hx := h'.held (h.held hx)
  seen _ hx := h'.seen (h.seen hx)
  writes _ hx := h'.writes (h.writes hx)
  covered := by
    intro r hr
    rcases h'.covered r hr with hr | hcov
    · exact (h.covered r hr).imp_right fun hcov => hcov.mono h'.writes
    · exact .inr hcov
  cache := h'.cache
  events := by
    intro w hw hnew
    by_cases hw' : w ∈ t'.writes
    · exact h.events w hw' hnew
    · exact h'.events w hw hw'

/-- Posting an entry follows: the key it finds free is its own entry's. -/
theorem post (hcache : ∀ w ∈ t.cache, w.id ∈ t.held) (e : LedgerEntry) :
    t.Follows ((Call.post e).next t ()) where
  held := by simp [Call.next]
  seen := by simp [Call.next]
  writes := by simp [Call.next]
  covered := by
    intro r hr
    simp only [Call.next, List.mem_append, List.mem_singleton] at hr
    rcases hr with hr | rfl
    · exact .inl hr
    · exact .inr ⟨e, by simp [Call.next], rfl⟩
  cache := by
    intro w hw
    simp only [Call.next, List.mem_map] at hw
    obtain ⟨v, hv, rfl⟩ := hw
    split <;> exact hcache v hv
  events := by
    intro w hw hnew
    simp only [Call.next, List.mem_append, List.mem_cons, List.not_mem_nil, or_false] at hw
    rcases hw with hw | rfl | rfl
    · exact absurd hw hnew
    · rfl
    · rfl

/-- Finding a key free and then posting an entry under it follows: the entry's check
guards the key. -/
theorem post_of_free {k : String} {s : Store} (hcache : ∀ w ∈ t.cache, w.id ∈ t.held)
    (hfree : (Call.entryByKey k).result s t = some none) {e : LedgerEntry} (hkey : e.key = k) :
    t.Follows ((Call.post e).next ((Call.entryByKey k).next t none) ()) := by
  -- nothing staged has the key, so the lookup read the store
  have hstaged : (t.entries.find? (·.key == k)).isSome = false := by
    simp only [Call.result, Option.some.injEq, Option.or_eq_none_iff] at hfree
    simp [hfree.1]
  have hnext : (Call.entryByKey k).next t none = { t with seen := t.seen ++ [.key k none] } := by
    simp [Call.next, hstaged]
  rw [hnext]
  have hpost : TxState.Follows { t with seen := t.seen ++ [.key k none] }
      ((Call.post e).next { t with seen := t.seen ++ [.key k none] } ()) :=
    @post { t with seen := t.seen ++ [.key k none] } hcache e
  refine ⟨hpost.held, fun r hr => hpost.seen (by simp [hr]), hpost.writes, ?_, hpost.cache,
    hpost.events⟩
  intro r hr
  rcases hpost.covered r hr with hr | hcov
  · simp only [List.mem_append, List.mem_singleton] at hr
    rcases hr with hr | rfl
    · exact .inl hr
    · exact .inr ⟨e, by simp [Call.next], hkey⟩
  · exact .inr hcov

/-- A key found taken follows: there is nothing to guard. -/
theorem found {k : String} {s : Store} {e : LedgerEntry} (hcache : ∀ w ∈ t.cache, w.id ∈ t.held)
    (_ : (Call.entryByKey k).result s t = some (some e)) :
    t.Follows ((Call.entryByKey k).next t (some e)) := by
  simp only [Call.next]
  split
  · exact refl hcache
  · exact ⟨fun _ h => h, by simp, fun _ h => h,
      fun r hr => by
        simp only [List.mem_append, List.mem_singleton] at hr
        rcases hr with hr | rfl
        · exact .inl hr
        · exact .inr trivial,
      hcache, fun _ h h' => absurd h h'⟩

end TxState.Follows

/-- What follows a guarded state is guarded. -/
theorem TxState.Covered.of_follows {t t' : TxState} (hc : t.Covered) (h : t.Follows t') :
    t'.Covered := by
  intro r hr
  rcases h.covered r hr with hr | hcov
  · exact (hc r hr).mono h.writes
  · exact hcov

/-! ## The pieces -/

namespace Tx

variable {f : Option String} {t : TxState}

theorem disciplined_applyEntry {w : Wallet} {type : EntryType} {amount : Decimal}
    {key reference description : String} {source : Source} {providerEventId entryId : String}
    {now : Instant} {k : Mutation → Tx}
    (hk : ∀ (e : LedgerEntry) m, e.key = key → Disciplined f (k m) ((Call.post e).next t ())) :
    Disciplined f (applyEntry w type amount key reference description source providerEventId
      entryId now k) t := by
  unfold applyEntry
  dsimp only
  split
  · exact .rollback
  · exact .call trivial fun _ _ _ => hk _ _ rfl

/-- **Locking a wallet is disciplined** when the continuation is, from every state that
follows, with a row of the wallet, whose lock it then holds. -/
theorem disciplined_lockWallet {id : String} {k : Wallet → Tx}
    (hcache : ∀ w ∈ t.cache, w.id ∈ t.held)
    (hk : ∀ w t', t.Follows t' → w.id = id → id ∈ t'.held → Disciplined f (k w) t') :
    Disciplined f (lockWallet id k) t := by
  refine .call trivial fun s a hr => ?_
  simp only [Call.result, Option.some.injEq] at hr
  subst hr
  simp only [Call.next]
  cases hc : t.cache.find? (·.id == id) with
  | some w =>
    -- the transaction's own copy: the wallet is locked already
    have hw : w.id = id := by simpa using List.find?_some hc
    exact hk w t (.refl hcache) hw (hw ▸ hcache w (List.mem_of_find?_eq_some hc))
  | none =>
    refine .call trivial fun _ _ _ => .call trivial fun _ _ _ => .call ?_ fun s w hr => ?_
    · simp [Call.Allowed, Call.next]
    · have hw : w.id = id := by
        simp only [Call.result, Store.wallet?] at hr
        simpa using List.find?_some hr
      refine hk w _ ⟨?_, ?_, ?_, ?_, ?_, ?_⟩ hw (by simp [Call.next])
      · simp [Call.next]
      · simp [Call.next]
      · simp [Call.next]
      · -- a wallet found and a row read need no guard
        intro r hr
        simp only [Call.next, List.mem_append, List.mem_singleton] at hr
        rcases hr with (hr | rfl) | rfl
        · exact .inl hr
        · exact .inr trivial
        · exact .inr trivial
      · intro v hv
        simp only [Call.next, List.mem_append, List.mem_singleton] at hv ⊢
        rcases hv with hv | rfl
        · exact .inl (hcache v hv)
        · exact .inr hw
      · intro w hw hnew
        exact absurd hw hnew

/-- **Locking wallets one after another is disciplined** when the continuation is, from
every state that follows, with rows of locked wallets. -/
theorem disciplined_lockEach (ids : List String) {k : List Wallet → Tx}
    (hcache : ∀ w ∈ t.cache, w.id ∈ t.held)
    (hk : ∀ ws t', t.Follows t' → (∀ w ∈ ws, w.id ∈ t'.held) → Disciplined f (k ws) t') :
    Disciplined f (lockEach ids k) t := by
  induction ids generalizing t k with
  | nil => exact hk [] t (.refl hcache) (by simp)
  | cons id ids ih =>
    apply disciplined_lockWallet hcache
    intro w t₁ h₁ hw hid
    apply ih h₁.cache
    intro ws t₂ h₂ hws
    refine hk (w :: ws) t₂ (h₁.trans h₂) ?_
    intro v hv
    rcases List.mem_cons.mp hv with rfl | hv
    · exact h₂.held (hw ▸ hid)
    · exact hws v hv

theorem disciplined_lockWallets (ids : List String) {k : List Wallet → Tx}
    (hcache : ∀ w ∈ t.cache, w.id ∈ t.held)
    (hk : ∀ ws t', t.Follows t' → (∀ w ∈ ws, w.id ∈ t'.held) → Disciplined f (k ws) t') :
    Disciplined f (lockWallets ids k) t :=
  disciplined_lockEach _ hcache hk

/-- **A credit inside a transaction is disciplined** when the continuation is, from every
state that follows: the key it finds free is the key of the entry it writes. -/
theorem disciplined_creditIn {r : CreditRequest} {entryId : String} {now : Instant}
    {k : String → Tx} (hcache : ∀ w ∈ t.cache, w.id ∈ t.held)
    (hk : ∀ id t', t.Follows t' → Disciplined f (k id) t') :
    Disciplined f (creditIn r entryId now k) t := by
  unfold creditIn
  split
  · exact .rollback
  · apply disciplined_lockWallet hcache
    intro w t₁ h₁ _ _
    refine .call trivial fun s a hr => ?_
    cases a with
    | some e => exact hk _ _ (h₁.trans (.found h₁.cache hr))
    | none =>
      apply disciplined_applyEntry
      intro e m hkey
      exact hk _ _ (h₁.trans (.post_of_free h₁.cache hr hkey))

/-! ## The transactions -/

theorem covered_empty : TxState.empty.Covered := by
  simp [TxState.Covered, TxState.empty]

/-- Readings that need no guard keep a state guarded. -/
theorem covered_append_seen (hc : t.Covered) {rs : List Reading}
    (hrs : ∀ r ∈ rs, ∀ ws, r.CoveredBy ws) : { t with seen := t.seen ++ rs }.Covered := by
  intro r hr
  rcases List.mem_append.mp hr with hr | hr
  · exact hc r hr
  · exact hrs r hr _

theorem disciplined_credit (r : CreditRequest) (entryId : String) (now : Instant) :
    Disciplined f (credit r entryId now) TxState.empty :=
  disciplined_creditIn (by simp [TxState.empty]) fun _ _ h => .commit (covered_empty.of_follows h)

theorem disciplined_debit (r : DebitRequest) (amount : Decimal) (type : EntryType)
    (entryId : String) (now : Instant) : Disciplined f (debit r amount type entryId now) TxState.empty := by
  unfold debit
  apply disciplined_lockWallet (by simp [TxState.empty])
  intro w t₁ h₁ _ _
  unfold debitLocked
  split
  · exact .rollback
  · refine .call trivial fun s a hr => ?_
    cases a with
    | some _ => exact .rollback
    | none =>
      dsimp only
      unfold debitFree
      split
      · exact .rollback
      · -- the key found free is the key of the entry written
        apply disciplined_applyEntry
        intro e _ hkey
        exact .commit (covered_empty.of_follows (h₁.trans (.post_of_free h₁.cache hr hkey)))

theorem disciplined_transfer (r : TransferRequest) (amount : Decimal) (outId inId : String)
    (now : Instant) : Disciplined f (transfer r amount outId inId now) TxState.empty := by
  unfold transfer
  dsimp only
  split
  · exact .rollback
  · apply disciplined_lockWallets _ (by simp [TxState.empty])
    intro locked t₁ h₁ _
    split
    · split
      · exact .rollback
      · refine .call trivial fun s a hr => ?_
        cases a with
        | some _ => exact .rollback
        | none =>
          dsimp only
          split
          · exact .rollback
          · -- the sender's key found free is the key of its entry; the receiver's entry
            -- guards its own key
            apply disciplined_applyEntry
            intro e₁ _ hkey₁
            have h₂ := h₁.trans (.post_of_free h₁.cache hr hkey₁)
            apply disciplined_applyEntry
            intro e₂ _ _
            exact .commit (covered_empty.of_follows (h₂.trans (.post h₂.cache e₂)))
    · exact .rollback

theorem disciplined_process (ev : PaymentEvent) (rowId entryId : String) (now : Instant) :
    Disciplined (some rowId) (process ev rowId entryId now) TxState.empty := by
  unfold process
  refine .call trivial fun _ prior _ => ?_
  -- nothing is staged yet: the lookup of the payment's row is a reading
  have hseen₁ : ((Call.eventByExternal ev.externalId).next TxState.empty prior).seen =
      [.event ev.externalId prior] := by
    simp [Call.next, TxState.empty]
  split
  · next hsettled =>
    -- a settled row: nothing is written, and the row read needs no guard
    refine .commit fun r hr => ?_
    rw [hseen₁, List.mem_singleton] at hr
    subst hr
    cases prior with
    | none => simp at hsettled
    | some p => exact .inl (by simpa [WebhookStatus.Settled] using hsettled)
  · next hpending =>
    refine .call trivial fun _ a _ => ?_
    rcases a with _ | ⟨walletId, currency⟩
    · exact .rollback
    · dsimp only
      split
      · exact .rollback
      · apply disciplined_creditIn (by simp [Call.next, TxState.empty])
        intro credited t' h'
        have hnone : ∀ w ∈ t'.writes, w.touchesEvents = false := fun w hw =>
          h'.events w hw (by simp [Call.next, TxState.empty])
        -- what the credit read is guarded, and so is what came before, once the
        -- payment's row is written
        have hguard : ∀ ws : List Write, Reading.CoveredBy ws (.event ev.externalId prior) →
            (∀ w ∈ t'.writes, w ∈ ws) → ∀ r ∈ t'.seen, r.CoveredBy ws := by
          intro ws hprior hsub r hr
          rcases h'.covered r hr with hr | hcov
          · have hr : r = .event ev.externalId prior ∨ r = .user ev.userId (some (walletId, currency)) := by
              simpa [Call.next, TxState.empty] using hr
            rcases hr with rfl | rfl
            · exact hprior
            · trivial
          · exact hcov.mono hsub
        cases prior with
        | none =>
          let row : WebhookEvent := ⟨rowId, ev.provider, ev.externalId, ev.payloadHash, .processed,
            0, none, none, credited, walletId, "", now, now⟩
          refine .call ⟨rfl, hnone⟩ fun _ _ _ => .completeOnRamp ?_
          intro r hr
          simp only [Call.next, List.mem_append, List.mem_singleton] at hr
          rcases hr with hr | rfl
          · exact hguard _ ⟨row, by simp [Call.next, row], rfl⟩ (fun w hw => by simp [Call.next, hw]) r hr
          · exact ⟨row, by simp [Call.next, row], rfl⟩
        | some p =>
          let row : WebhookEvent := { p with
            errorMessage := "", status := .processed, transactionId := credited,
            walletId := walletId, updatedAt := now }
          have hns : ¬ p.status.Settled := by simpa [WebhookStatus.Settled] using hpending
          refine .call ⟨rfl, hns, hnone, ev.externalId, p,
            h'.seen (by simp [Call.next, TxState.empty]), rfl, rfl, rfl⟩
            fun _ _ _ => .completeOnRamp ?_
          intro r hr
          exact hguard _ (.inr ⟨row, by simp [Call.next, row], rfl⟩)
            (fun w hw => by simp [Call.next, hw]) r hr

theorem disciplined_replay (a : MissingWebhookAlert) (o : OnRamp) (admin : Actor)
    (entryId : String) (now : Instant) : Disciplined f (replay a o admin entryId now) TxState.empty := by
  unfold replay
  dsimp only
  -- after the purchase, if any: the credit, then the case written back
  have hrest : ∀ t : TxState, t.Covered → (∀ w ∈ t.cache, w.id ∈ t.held) →
      Disciplined f (if !admin.isAdmin then .rollback else
        creditIn (Reconcile.replayCredit a o admin) entryId now fun _ =>
          .call (.stage (.updateMissing a .pending)) fun _ => .commit) t := by
    intro t hc hcache
    split
    · exact .rollback
    · exact disciplined_creditIn hcache fun _ _ h' =>
        .call trivial fun _ _ _ => .commit ((hc.of_follows h').stage _)
  split
  · exact .call trivial fun _ _ _ => hrest _ (covered_empty.stage _) (by simp [Call.next, TxState.empty])
  · exact hrest _ covered_empty (by simp [TxState.empty])

/-- The flags: each suspect's sums and newest entry are read under its lock, and the flag
is written to a locked wallet. -/
theorem disciplined_flagEach (locked : List Wallet) (now : Instant) (ids : List String)
    (hlocked : ∀ w ∈ locked, w.id ∈ t.held) (hc : t.Covered) :
    Disciplined f (flagEach locked now ids) t := by
  induction ids generalizing t with
  | nil => exact .commit hc
  | cons id ids ih =>
    unfold flagEach
    split
    · exact .rollback
    · next w hw =>
      have hid : id ∈ t.held := by
        have hwid : w.id = id := by simpa using List.find?_some hw
        exact hwid ▸ hlocked w (List.mem_of_find?_eq_some hw)
      refine .call hid fun _ sums _ => .call hid fun _ latest _ => ?_
      -- the sums and the newest entry need no guard
      have hc₂ : ((Call.latestAfter id).next ((Call.ledgerSums id).next t sums) latest).Covered :=
        covered_append_seen (covered_append_seen hc fun r hr _ => by simp at hr; subst hr; trivial)
          fun r hr _ => by simp at hr; subst hr; trivial
      split
      · exact ih hlocked hc₂
      · split
        · exact ih hlocked hc₂
        · exact .call hid fun _ _ _ => ih hlocked (hc₂.stage _)

theorem disciplined_flagSuspects (ids : List String) (now : Instant) :
    Disciplined f (flagSuspects ids now) TxState.empty :=
  disciplined_lockWallets _ (by simp [TxState.empty]) fun locked _ h hlocked =>
    disciplined_flagEach locked now ids hlocked (covered_empty.of_follows h)

end Tx

/-- **Every engine transaction is disciplined**, having drawn the id of the one new
payment row it may write. -/
theorem EngineTx.disciplined_body (tx : EngineTx) : tx.body.Disciplined tx.newRow TxState.empty := by
  cases tx with
  | credit r entryId now => exact Tx.disciplined_credit r entryId now
  | debit r amount type entryId now => exact Tx.disciplined_debit r amount type entryId now
  | transfer r amount outId inId now => exact Tx.disciplined_transfer r amount outId inId now
  | process ev rowId entryId now => exact Tx.disciplined_process ev rowId entryId now
  | replay a o admin entryId now => exact Tx.disciplined_replay a o admin entryId now
  | flag ids now => exact Tx.disciplined_flagSuspects ids now

end OnrampLedger
