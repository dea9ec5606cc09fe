/-
  The connect flow hands out every flow, code and session once.
-/
import PubkyLocks.Sessions.ConnectFlows

namespace PubkyLocks

open ConnectCall ConnectTables Calls

namespace ConnectCall

/-- The call stands where it has nothing in hand and has issued nothing. -/
def plain : ConnectCall → Bool
  | start _ | insertingFlow _ | complete _ _ | deletingFlow _ | awaitingApproval _ _ _
  | consumingFlow _ _ | exchange _ | failed _ => true
  | started _ | storingAuthority _ _ _ | storingCode _ _ _ | completed _ _ _
  | storingSession _ _ | exchanged _ _ => false

@[simp] def started? : ConnectCall → Option PendingCreatorConnectFlowRecord
  | started flow => some flow
  | _ => none

@[simp] def consumed? : ConnectCall → Option PendingCreatorConnectFlowRecord
  | storingAuthority flow _ _ | storingCode flow _ _ | completed flow _ _ => some flow
  | _ => none

@[simp] def completed? : ConnectCall → Option PendingCreatorConnectFlowRecord
  | completed flow _ _ => some flow
  | _ => none

@[simp] def stored? : ConnectCall → Option FrontendSessionCodeRecord
  | completed _ _ code => some code
  | _ => none

@[simp] def taken? : ConnectCall → Option FrontendSessionCodeRecord
  | storingSession code _ | exchanged code _ => some code
  | _ => none

@[simp] def exchanged? : ConnectCall → Option FrontendSessionCodeRecord
  | exchanged code _ => some code
  | _ => none

@[simp] def session? : ConnectCall → Option FrontendSessionRecord
  | exchanged _ session => some session
  | _ => none

end ConnectCall

/-! ## Steps -/

inductive ConnectStep (X : ConnectExternals) (i : ConnectInput) (t : ConnectTables) :
    ConnectCall → ConnectCall → ConnectTables → Prop
  | quiet {call next : ConnectCall} : next.plain → ConnectStep X i t call next t
  | insertFlow (flow : PendingCreatorConnectFlowRecord) :
    ConnectStep X i t (.insertingFlow flow) (.started flow) { t with flows := t.flows ++ [flow] }
  | dropFlows {call next : ConnectCall} (p : PendingCreatorConnectFlowRecord → Bool) :
    next.plain → ConnectStep X i t call next { t with flows := t.flows.filter p }
  | takeFlow {pending flow : PendingCreatorConnectFlowRecord} {authority : CreatorAuthorityRecord}
      (p : PendingCreatorConnectFlowRecord → Bool) : flow ∈ t.flows → p flow = false →
    ConnectStep X i t (.consumingFlow pending authority)
      (.storingAuthority flow { authority with lastRevalidatedAt := some i.now } i.now)
      { t with flows := t.flows.filter p }
  | storeAuthority {flow : PendingCreatorConnectFlowRecord} {authority : CreatorAuthorityRecord}
      {committedAt : Timestamp} :
    ConnectStep X i t (.storingAuthority flow authority committedAt)
      (.storingCode flow authority committedAt) (t.upsertCreatorAuthority authority)
  | storeCode {flow : PendingCreatorConnectFlowRecord} {authority : CreatorAuthorityRecord}
      {committedAt : Timestamp} {code : FrontendSessionCodeRecord} :
    code = ConnectCall.issuedCode flow authority committedAt i.code →
    (∀ row ∈ t.codes, row.codeHash ≠ X.secretLookupHash code.code) →
    ConnectStep X i t (.storingCode flow authority committedAt) (.completed flow authority code)
      { t with codes := t.codes ++ [⟨X.secretLookupHash code.code, code.creator, code.state,
        code.returnTo, code.createdAt, code.expiresAt, code.consumedAt⟩] }
  | spendCode {request : ExchangeFrontendSessionCodeRequest} {next : ConnectCall} :
    next.plain → ConnectStep X i t (.exchange request) next
      (t.consumeFrontendSessionCode X request.code i.now).2
  | takeCode {request : ExchangeFrontendSessionCodeRequest} {row : FrontendSessionCodeRow}
      {code : FrontendSessionCodeRecord} : row ∈ t.codes →
    ConnectTables.unconsumed (X.secretLookupHash request.code) row →
    code = ⟨request.code, row.creator, row.state, row.returnTo, row.createdAt, row.expiresAt,
      row.consumedAt⟩ →
    i.now < row.expiresAt →
    ConnectStep X i t (.exchange request) (.storingSession code i.now)
      (t.consumeFrontendSessionCode X request.code i.now).2
  | storeSession {code : FrontendSessionCodeRecord} {now : Timestamp}
      {session : FrontendSessionRecord} :
    session = ConnectCall.issuedSession code now i.token →
    ConnectStep X i t (.storingSession code now) (.exchanged code session)
      { t with sessions := t.sessions ++ [⟨X.secretLookupHash session.token, session.creator,
        session.createdAt, session.expiresAt⟩] }

variable {X : ConnectExternals} {i : ConnectInput} {t t' : ConnectTables}
  {call next : ConnectCall}

theorem ConnectCall.plain_onStart (request : StartCreatorConnectFlowRequest) (i : ConnectInput) :
    (onStart request i).plain := by
  unfold onStart
  split <;> rfl

theorem ConnectCall.plain_onPending (client : CreatorAuthorityAuthKind)
    (row : Option PendingCreatorConnectFlowRecord) : (onPending X client i row).plain := by
  unfold onPending
  split
  · rfl
  · split
    · rfl
    · split
      · rfl
      · split <;> rfl

theorem ConnectCall.plain_onApproval (client : CreatorAuthorityAuthKind)
    (pending : PendingCreatorConnectFlowRecord) (now : Timestamp) :
    (onApproval client pending now i).plain := by
  unfold onApproval
  split
  · rfl
  · split <;> rfl

/-- **Steps.**  Every step of a call is one of the listed ones, and a call that
    takes one has issued nothing so far. -/
theorem connectStep_of_step (h : call.step X i t = some (next, t')) :
    ConnectStep X i t call next t' ∧ call.started? = none ∧ call.stored? = none ∧
      call.session? = none := by
  cases call with
  | start request =>
    cases h
    exact ⟨.quiet (plain_onStart request i), rfl, rfl, rfl⟩
  | insertingFlow flow =>
    refine ⟨?_, rfl, rfl, rfl⟩
    simp only [step, insertPendingCreatorConnectFlow] at h
    split at h
    · rename_i hinsert
      cases h
      exact .quiet rfl
    · rename_i hinsert
      cases h
      split at hinsert
      · cases hinsert
      · cases hinsert
        exact .insertFlow flow
  | started flow => cases h
  | complete flowId client =>
    cases h
    exact ⟨.quiet (plain_onPending client _), rfl, rfl, rfl⟩
  | deletingFlow flowId =>
    cases h
    exact ⟨.dropFlows _ rfl, rfl, rfl, rfl⟩
  | awaitingApproval client pending now =>
    cases h
    exact ⟨.quiet (plain_onApproval client pending now), rfl, rfl, rfl⟩
  | consumingFlow pending authority =>
    refine ⟨?_, rfl, rfl, rfl⟩
    simp only [step, consumePendingCreatorConnectFlow,
      onConsumed, Option.some.injEq, Prod.mk.injEq] at h
    obtain ⟨hnext, rfl⟩ := h
    split at hnext
    · subst hnext
      exact .dropFlows _ rfl
    · rename_i flow hflow
      obtain ⟨hfind, -⟩ := Option.filter_eq_some_iff.1 hflow
      split at hnext
      · subst hnext
        exact .dropFlows _ rfl
      · subst hnext
        have hp : consumable pending.flowId i.dbNow flow = true :=
          List.find?_some hfind
        exact .takeFlow _ (List.mem_of_find?_eq_some hfind) (by simp [hp])
  | storingAuthority flow authority committedAt =>
    cases h
    exact ⟨.storeAuthority, rfl, rfl, rfl⟩
  | storingCode flow authority committedAt =>
    refine ⟨?_, rfl, rfl, rfl⟩
    simp only [step, insertFrontendSessionCode] at h
    split at h
    · cases h
      exact .quiet rfl
    · rename_i hinsert
      cases h
      split at hinsert
      · cases hinsert
      · rename_i hfresh
        cases hinsert
        refine .storeCode rfl fun row hrow heq => hfresh ?_
        exact List.any_eq_true.2 ⟨row, hrow, beq_iff_eq.2 heq⟩
  | completed flow authority code => cases h
  | exchange request =>
    refine ⟨?_, rfl, rfl, rfl⟩
    simp only [step, Option.some.injEq, Prod.mk.injEq] at h
    obtain ⟨hnext, rfl⟩ := h
    cases hfind : t.codes.find? (unconsumed (X.secretLookupHash request.code)) with
    | none =>
      simp only [consumeFrontendSessionCode, hfind, Option.map_none] at hnext
      subst hnext
      exact .spendCode rfl
    | some row =>
      simp only [consumeFrontendSessionCode, hfind, Option.map_some,
        onCode] at hnext
      split_ifs at hnext with hconsumed hexpired hstate
      · subst hnext
        exact .spendCode rfl
      · subst hnext
        exact .spendCode rfl
      · subst hnext
        exact .spendCode rfl
      · subst hnext
        refine .takeCode (List.mem_of_find?_eq_some hfind) (List.find?_some hfind) rfl ?_
        simpa [FrontendSessionCodeRecord.isExpiredAt] using hexpired
  | storingSession code now =>
    refine ⟨?_, rfl, rfl, rfl⟩
    simp only [step, insertFrontendSession] at h
    split at h
    · cases h
      exact .quiet rfl
    · rename_i hinsert
      cases h
      split at hinsert
      · cases hinsert
      · cases hinsert
        exact .storeSession rfl
  | exchanged code session => cases h
  | failed e => cases h

/-! ## Tokens -/

theorem ConnectCall.tokens_of_plain (h : call.plain) :
    call.started? = none ∧ call.consumed? = none ∧ call.stored? = none ∧ call.taken? = none ∧
      call.session? = none := by
  cases call <;> first | exact ⟨rfl, rfl, rfl, rfl, rfl⟩ | cases h

theorem ConnectCall.plain_of_starts (h : call.starts) : call.plain := by
  cases call <;> first | rfl | cases h

theorem filter_add_le {α : Type} {p : α → Bool} {l : List α} {x : α} (hx : x ∈ l)
    (hp : p x = false) : ((l.filter p : List α) : Multiset α) + {x} ≤ l := by
  induction l with
  | nil => cases hx
  | cons y l ih =>
    rcases List.mem_cons.1 hx with rfl | hx
    · rw [List.filter_cons_of_neg (by simp [hp]), add_comm, Multiset.singleton_add,
        ← Multiset.cons_coe]
      exact Multiset.cons_le_cons x (Multiset.coe_le.2 List.filter_sublist.subperm)
    · rw [← Multiset.cons_coe, List.filter_cons]
      split
      · rw [← Multiset.cons_coe, Multiset.cons_add]
        exact Multiset.cons_le_cons y (ih hx)
      · exact (ih hx).trans (Multiset.le_cons_self _ y)

theorem flows_conserved (X : ConnectExternals) : Conserves (connectService X) (fun _ => True)
      (fun t => (t.flows : Multiset PendingCreatorConnectFlowRecord))
      (fun call => token call.consumed?) (fun call => token call.started?) where
  start h := by
    rw [(tokens_of_plain (plain_of_starts h)).2.1]
    rfl
  step _ h := by
    obtain ⟨hstep, hstarted, -⟩ := connectStep_of_step h
    rw [hstarted, token_none, add_zero]
    cases hstep with
    | quiet hplain =>
      obtain ⟨hnew, hheld, -⟩ := tokens_of_plain hplain
      rw [hnew, hheld, token_none, add_zero, add_zero]
      exact Multiset.le_add_right _ _
    | insertFlow flow =>
      rw [← Multiset.coe_add]
      simp
    | dropFlows p hplain =>
      obtain ⟨hnew, hheld, -⟩ := tokens_of_plain hplain
      rw [hnew, hheld, token_none, add_zero, add_zero]
      exact (Multiset.coe_le.2 List.filter_sublist.subperm).trans (Multiset.le_add_right _ _)
    | takeFlow p hmem hp => simpa using filter_add_le hmem hp
    | storeAuthority => simp [upsertCreatorAuthority]
    | storeCode => simp
    | spendCode hplain =>
      obtain ⟨hnew, hheld, -⟩ := tokens_of_plain hplain
      rw [hnew, hheld]
      simp [consumeFrontendSessionCode]
    | takeCode => simp [consumeFrontendSessionCode]
    | storeSession => simp
  other _ h := by
    cases h
    exact le_rfl

/-- The hashes of the codes that are not consumed. -/
def ConnectTables.unspent (t : ConnectTables) : Multiset LockHash :=
  ((t.codes.filter (·.consumedAt.isNone)).map (·.codeHash) : List LockHash)

theorem unspent_consume (code : String) (now : Timestamp) :
    (t.consumeFrontendSessionCode X code now).2.unspent =
      (((t.codes.filter (·.consumedAt.isNone)).filter
        (fun r => !unconsumed (X.secretLookupHash code) r)).map (·.codeHash) :
          List LockHash) := by
  have hrows : (Table.updateWhere (unconsumed (X.secretLookupHash code))
      (fun r => { r with consumedAt := some now }) t.codes).filter (·.consumedAt.isNone) =
      (t.codes.filter (·.consumedAt.isNone)).filter
        (fun r => !unconsumed (X.secretLookupHash code) r) := by
    unfold Table.updateWhere
    induction t.codes with
    | nil => rfl
    | cons r codes ih =>
      rw [List.map_cons, List.filter_cons, List.filter_cons, ih]
      cases hr : r.consumedAt with
      | none =>
        by_cases hu : unconsumed (X.secretLookupHash code) r
        · simp [hu]
        · simp [hu, hr]
      | some _ => simp [unconsumed, hr]
  exact congrArg (fun rows : List FrontendSessionCodeRow =>
    ((rows.map (·.codeHash) : List LockHash) : Multiset LockHash)) hrows

theorem unspent_take {row : FrontendSessionCodeRow} {code : String} (now : Timestamp)
    (hmem : row ∈ t.codes)
    (hrow : unconsumed (X.secretLookupHash code) row) :
    (t.consumeFrontendSessionCode X code now).2.unspent + {X.secretLookupHash code} ≤
      t.unspent := by
  have hsplit : row.codeHash = X.secretLookupHash code ∧ row.consumedAt.isNone := by
    simpa [unconsumed] using hrow
  have hnew : row ∈ t.codes.filter (·.consumedAt.isNone) := List.mem_filter.2 ⟨hmem, hsplit.2⟩
  have hrows := Multiset.map_le_map (f := FrontendSessionCodeRow.codeHash) (filter_add_le hnew
    (p := fun r => !unconsumed (X.secretLookupHash code) r) (by simp [hrow]))
  rw [Multiset.map_add, Multiset.map_singleton, hsplit.1, Multiset.map_coe,
    Multiset.map_coe] at hrows
  rw [unspent_consume]
  exact hrows

theorem codes_conserved (X : ConnectExternals) :
    Conserves (connectService X) (fun _ => True) unspent
      (fun call => token (call.taken?.map fun code => X.secretLookupHash code.code))
      (fun call => token (call.stored?.map fun code => X.secretLookupHash code.code)) where
  start h := by
    rw [(tokens_of_plain (plain_of_starts h)).2.2.2.1]
    rfl
  step _ h := by
    obtain ⟨hstep, -, hstored, -⟩ := connectStep_of_step h
    rw [hstored, Option.map_none, token_none, add_zero]
    cases hstep with
    | quiet hplain =>
      obtain ⟨-, -, hnew, hheld, -⟩ := tokens_of_plain hplain
      rw [hnew, hheld, Option.map_none, token_none, add_zero, add_zero]
      exact Multiset.le_add_right _ _
    | insertFlow flow => simp [unspent]
    | dropFlows p hplain =>
      obtain ⟨-, -, hnew, hheld, -⟩ := tokens_of_plain hplain
      rw [hnew, hheld, Option.map_none, token_none, add_zero, add_zero]
      exact Multiset.le_add_right _ _
    | takeFlow => simp [unspent]
    | storeAuthority => simp [unspent, upsertCreatorAuthority]
    | storeCode hcode =>
      rw [hcode]
      simp [unspent, issuedCode, ← Multiset.coe_add]
    | @spendCode request next hplain =>
      obtain ⟨-, -, hnew, hheld, -⟩ := tokens_of_plain hplain
      rw [hnew, hheld, Option.map_none, token_none, add_zero, add_zero,
        unspent_consume]
      refine le_trans ?_ (Multiset.le_add_right _ _)
      exact Multiset.coe_le.2 (List.filter_sublist.map _).subperm
    | takeCode hmem hrow hcode =>
      rw [hcode]
      simpa using unspent_take _ hmem hrow
    | storeSession => simp [unspent]
  other _ h := by
    cases h
    exact le_rfl

theorem codes_issued {s : State ConnectTables ConnectCall}
    {events : List (Event ConnectCall ConnectInput String)}
    (h : (connectService X).Run connectInit events s) :
    ((s.store.codes.map (·.codeHash) : List LockHash) : Multiset LockHash) =
      (s.calls.filterMap fun call => call.stored?.map fun code => X.secretLookupHash code.code :
        List LockHash) := by
  rw [← total_filterMap]
  refine kept_eq_issued (fun t : ConnectTables =>
    ((t.codes.map (·.codeHash) : List LockHash) : Multiset LockHash)) _ ?_ ?_ ?_ h rfl
  · intro call hstart
    rw [(tokens_of_plain (plain_of_starts hstart)).2.2.1]
    rfl
  · intro t t' call next i hcall
    obtain ⟨hstep, -, hstored, -⟩ := connectStep_of_step hcall
    rw [hstored, Option.map_none, token_none, add_zero]
    have hconsume : ∀ code now, (t.consumeFrontendSessionCode X code now).2.codes.map
        (·.codeHash) = t.codes.map (·.codeHash) :=
      fun code now => Table.map_updateWhere fun _ _ _ => rfl
    cases hstep with
    | quiet hplain =>
      rw [(tokens_of_plain hplain).2.2.1]
      simp
    | insertFlow flow => simp
    | dropFlows p hplain =>
      rw [(tokens_of_plain hplain).2.2.1]
      simp
    | takeFlow => simp
    | storeAuthority => simp [upsertCreatorAuthority]
    | storeCode => simp [← Multiset.coe_add]
    | spendCode hplain =>
      rw [(tokens_of_plain hplain).2.2.1, hconsume]
      simp
    | takeCode =>
      rw [hconsume]
      simp
    | storeSession => simp
  · intro t t' token hother
    cases hother
    rfl

theorem sessions_conserved (X : ConnectExternals) : Conserves (connectService X) (fun _ => True)
      (fun t => ((t.sessions.map fun r => (r.tokenHash, r.creator) :
        List (LockHash × CreatorPubky)) : Multiset (LockHash × CreatorPubky)))
      (fun _ => 0)
      (fun call => token (call.session?.map fun r =>
        (X.secretLookupHash r.token, r.creator))) where
  start _ := rfl
  step _ h := by
    obtain ⟨hstep, -, -, hsession⟩ := connectStep_of_step h
    rw [hsession, Option.map_none, token_none, add_zero, add_zero, add_zero]
    cases hstep with
    | storeSession => simp [← Multiset.coe_add]
    | storeAuthority => exact Multiset.le_add_right _ _
    | spendCode => exact Multiset.le_add_right _ _
    | takeCode => exact Multiset.le_add_right _ _
    | _ => exact Multiset.le_add_right _ _
  other _ h := by
    cases h
    exact Multiset.coe_le.2 (List.filter_sublist.map _).subperm

/-! ## Creators -/

/-- The code has a row, with its creator and its expiry. -/
def ConnectTables.HasCode (X : ConnectExternals) (t : ConnectTables)
    (code : FrontendSessionCodeRecord) : Prop :=
  ∃ row ∈ t.codes, row.codeHash = X.secretLookupHash code.code ∧ row.creator = code.creator ∧
    row.expiresAt = code.expiresAt

def ConnectCall.Knows (X : ConnectExternals) (t : ConnectTables) : ConnectCall → Prop
  | completed _ authority code => code.creator = authority.creator ∧ t.HasCode X code
  | storingSession code now => t.HasCode X code ∧ now < code.expiresAt
  | exchanged code session =>
    t.HasCode X code ∧ session.creator = code.creator ∧ session.createdAt < code.expiresAt
  | _ => True

def ConnectTables.KeepsCodes (t t' : ConnectTables) : Prop :=
  ∀ row ∈ t.codes, ∃ row' ∈ t'.codes, row'.codeHash = row.codeHash ∧ row'.creator = row.creator ∧
    row'.expiresAt = row.expiresAt

theorem ConnectTables.HasCode.mono {code : FrontendSessionCodeRecord} (h : t.HasCode X code)
    (hk : t.KeepsCodes t') : t'.HasCode X code := by
  obtain ⟨row, hrow, hhash, hcreator, hexpires⟩ := h
  obtain ⟨row', hrow', hhash', hcreator', hexpires'⟩ := hk row hrow
  exact ⟨row', hrow', hhash'.trans hhash, hcreator'.trans hcreator, hexpires'.trans hexpires⟩

theorem keepsCodes_of_eq (h : t'.codes = t.codes) : t.KeepsCodes t' :=
  fun row hrow => ⟨row, h ▸ hrow, rfl, rfl, rfl⟩

theorem keepsCodes_consume (code : String) (now : Timestamp) :
    t.KeepsCodes (t.consumeFrontendSessionCode X code now).2 := by
  intro row hrow
  by_cases hu : unconsumed (X.secretLookupHash code) row
  · exact ⟨{ row with consumedAt := some now }, Table.mem_updateWhere.2 ⟨row, hrow, .inl ⟨hu, rfl⟩⟩,
      rfl, rfl, rfl⟩
  · exact ⟨row, Table.mem_updateWhere.2 ⟨row, hrow, .inr ⟨by simpa using hu, rfl⟩⟩, rfl, rfl, rfl⟩

theorem ConnectCall.knows_of_plain (h : call.plain) : call.Knows X t := by
  cases call <;> trivial

theorem connect_guarantees (X : ConnectExternals) :
    Guarantees (connectService X) (fun t => (t.codes.map (·.codeHash)).Nodup)
      (fun t call => call.Knows X t) KeepsCodes where
  start h := knows_of_plain (plain_of_starts h)
  step := by
    intro t t' call next i hnodup hknows h
    have hconsume : ∀ code now, (t.consumeFrontendSessionCode X code now).2.codes.map
        (·.codeHash) = t.codes.map (·.codeHash) :=
      fun code now => Table.map_updateWhere fun _ _ _ => rfl
    cases (connectStep_of_step h).1 with
    | quiet hplain => exact ⟨hnodup, knows_of_plain hplain, keepsCodes_of_eq rfl⟩
    | insertFlow flow => exact ⟨hnodup, trivial, keepsCodes_of_eq rfl⟩
    | dropFlows p hplain =>
      exact ⟨hnodup, knows_of_plain hplain, keepsCodes_of_eq rfl⟩
    | takeFlow => exact ⟨hnodup, trivial, keepsCodes_of_eq rfl⟩
    | storeAuthority => exact ⟨hnodup, trivial, keepsCodes_of_eq rfl⟩
    | storeCode hcode hfresh =>
      refine ⟨?_, ⟨by rw [hcode]; rfl, _, List.mem_append_right _ (List.mem_singleton_self _), rfl,
        rfl, rfl⟩, fun row hrow => ⟨row, List.mem_append_left _ hrow, rfl, rfl, rfl⟩⟩
      rw [List.map_append, List.map_cons, List.map_nil, List.nodup_append_comm]
      refine List.nodup_cons.2 ⟨fun hmem => ?_, hnodup⟩
      obtain ⟨row, hrow, heq⟩ := List.mem_map.1 hmem
      exact hfresh row hrow heq
    | spendCode hplain =>
      exact ⟨hconsume _ _ ▸ hnodup, knows_of_plain hplain, keepsCodes_consume _ _⟩
    | @takeCode request row code hmem hrow hcode hnow =>
      refine ⟨hconsume _ _ ▸ hnodup, ⟨?_, ?_⟩, keepsCodes_consume _ _⟩
      · have hhash : row.codeHash = X.secretLookupHash request.code := by
          have hrow' : row.codeHash = X.secretLookupHash request.code ∧ row.consumedAt.isNone := by
            simpa [unconsumed] using hrow
          exact hrow'.1
        have hhas : t.HasCode X code := by
          rw [hcode]
          exact ⟨row, hmem, hhash, rfl, rfl⟩
        exact hhas.mono (keepsCodes_consume _ _)
      · rw [hcode]
        exact hnow
    | storeSession hsession =>
      refine ⟨hnodup, ⟨hknows.1, ?_, ?_⟩, keepsCodes_of_eq rfl⟩
      · rw [hsession]
        rfl
      · rw [hsession]
        exact hknows.2
  other hnodup h := by
    cases h
    exact ⟨hnodup, keepsCodes_of_eq rfl⟩
  stable := by
    intro t t' call hkeeps hknows
    cases call with
    | completed flow authority code => exact ⟨hknows.1, hknows.2.mono hkeeps⟩
    | storingSession code now => exact ⟨hknows.1.mono hkeeps, hknows.2⟩
    | exchanged code session => exact ⟨hknows.1.mono hkeeps, hknows.2⟩
    | _ => trivial

/-! ## Runs -/

variable {s : State ConnectTables ConnectCall}
  {events : List (Event ConnectCall ConnectInput String)}

/-- The step in which the call at an index takes a code that is stored, not
    consumed and not expired at the clock it reads. -/
def Redeems (X : ConnectExternals) (n : ℕ) (code : FrontendSessionCodeRecord)
    (session : FrontendSessionRecord) (m : State ConnectTables ConnectCall)
    (e : Event ConnectCall ConnectInput String) : Prop :=
  ∃ i request row, e = .step n i ∧ m.calls[n]? = some (.exchange request) ∧
    row ∈ m.store.codes ∧ row.codeHash = X.secretLookupHash request.code ∧
    request.code = code.code ∧ row.consumedAt = none ∧ i.now < row.expiresAt ∧
    session.createdAt = i.now

def StoresAuthority (X : ConnectExternals) (n : ℕ) (authority : CreatorAuthorityRecord)
    (m : State ConnectTables ConnectCall) (e : Event ConnectCall ConnectInput String) : Prop :=
  ∃ i m', e = .step n i ∧ (connectService X).exec m e = some m' ∧ authority ∈ m'.store.authorities

theorem redeems_of_exchanged (h : (connectService X).Run connectInit events s) {n : ℕ}
    {code : FrontendSessionCodeRecord} {session : FrontendSessionRecord}
    (hn : s.calls[n]? = some (.exchanged code session)) :
    Runs.Passes (Runs.ofExec (connectService X).exec) connectInit events s
      (Redeems X n code session) := by
  have henter := enters_of_run (S := connectService X)
    (B := fun call => call = .storingSession code session.createdAt ∨
      call = .exchanged code session)
    (fun call hstart hB => ?_) h rfl hn (.inr rfl)
  · refine henter.imp fun m e hstep => ?_
    obtain ⟨i, before, next, store, rfl, hm, hout, hin, hcall⟩ := hstep
    have hstep := (connectStep_of_step hcall).1
    cases hstep with
    | quiet hplain => rcases hin with rfl | rfl <;> cases hplain
    | dropFlows _ hplain => rcases hin with rfl | rfl <;> cases hplain
    | spendCode hplain => rcases hin with rfl | rfl <;> cases hplain
    | @takeCode request row _ hmem hrow hcode hnow =>
      have hrow' : row.codeHash = X.secretLookupHash request.code ∧ row.consumedAt.isNone := by
        simpa [unconsumed] using hrow
      rcases hin with hin | hin
      · injection hin with htaken hat
        refine ⟨i, request, row, rfl, hm, hmem, hrow'.1, ?_, Option.isNone_iff_eq_none.1 hrow'.2,
          hnow, hat.symm⟩
        rw [← htaken, hcode]
      · cases hin
    | storeSession hsession =>
      -- a call that stores its session has taken its code before
      rcases hin with hin | hin
      · cases hin
      · injection hin with htaken hstored
        refine absurd (.inl ?_) hout
        rw [← htaken, ← hstored, hsession]
        rfl
    | insertFlow | takeFlow | storeAuthority | storeCode => rcases hin with hin | hin <;> cases hin
  · rcases hB with rfl | rfl <;> cases hstart

theorem mem_upsertCreatorAuthority (a : CreatorAuthorityRecord) :
    a ∈ (t.upsertCreatorAuthority a).authorities := by
  unfold upsertCreatorAuthority
  dsimp only
  split
  · rename_i hany
    obtain ⟨r, hr, heq⟩ := List.any_eq_true.1 hany
    exact Table.mem_updateWhere.2 ⟨r, hr, .inl ⟨heq, rfl⟩⟩
  · exact List.mem_append_right _ (List.mem_singleton_self a)

theorem storesAuthority_of_completed (h : (connectService X).Run connectInit events s) {n : ℕ}
    {flow : PendingCreatorConnectFlowRecord} {authority : CreatorAuthorityRecord}
    {code : FrontendSessionCodeRecord}
    (hn : s.calls[n]? = some (.completed flow authority code)) :
    Runs.Passes (Runs.ofExec (connectService X).exec) connectInit events s
      (StoresAuthority X n authority) := by
  have henter := enters_of_run (S := connectService X)
    (B := fun call => (∃ committedAt, call = .storingCode flow authority committedAt) ∨
      ∃ code, call = .completed flow authority code)
    (fun call hstart hB => ?_) h rfl hn (.inr ⟨code, rfl⟩)
  · refine henter.imp fun m e hstep => ?_
    obtain ⟨i, before, next, store, rfl, hm, hout, hin, hcall⟩ := hstep
    have hexec : (connectService X).exec m (.step n i) = some ⟨store, m.calls.set n next⟩ := by
      simp only [Service.exec, hm, Option.bind_some, hcall, Option.map_some]
    have hstep := (connectStep_of_step hcall).1
    refine ⟨i, _, rfl, hexec, ?_⟩
    rcases hin with ⟨committedAt, rfl⟩ | ⟨code, rfl⟩
    · cases hstep with
      | quiet hplain => cases hplain
      | dropFlows _ hplain => cases hplain
      | spendCode hplain => cases hplain
      | storeAuthority => exact mem_upsertCreatorAuthority authority
    · cases hstep with
      | quiet hplain => cases hplain
      | dropFlows _ hplain => cases hplain
      | spendCode hplain => cases hplain
      | storeCode => exact absurd (.inl ⟨_, rfl⟩) hout
  · rcases hB with ⟨_, rfl⟩ | ⟨_, rfl⟩ <;> cases hstart

/-- **Single use.**  Along every run of the connect flow
    * the flows that calls have completed are among those that calls have started,
      each as often at most;
    * the stored codes are those of the completed flows, each with its own hash;
    * every code is exchanged once at most;
    * every stored session is that of an exchange;
    * an exchange has found its code stored, not consumed and not expired, and the
      creator of its session is the one whose authority was stored when the flow
      of the code completed. -/
theorem connect_single_use (X : ConnectExternals) {s : State ConnectTables ConnectCall}
    {events : List (Event ConnectCall ConnectInput String)}
    (h : (connectService X).Run connectInit events s) :
    (s.calls.filterMap (·.completed?)).Subperm (s.calls.filterMap (·.started?)) ∧
    ((s.store.codes.map (·.codeHash)).Nodup ∧
      (s.store.codes.map (·.codeHash)).Perm (s.calls.filterMap fun call =>
        call.stored?.map fun code => X.secretLookupHash code.code)) ∧
    (s.calls.filterMap fun call =>
      call.exchanged?.map fun code => X.secretLookupHash code.code).Nodup ∧
    (∀ r ∈ s.store.sessions, ∃ (n : ℕ) (code : FrontendSessionCodeRecord)
      (session : FrontendSessionRecord), s.calls[n]? = some (.exchanged code session) ∧
        r.tokenHash = X.secretLookupHash session.token ∧ r.creator = session.creator) ∧
    ∀ (n : ℕ) (code : FrontendSessionCodeRecord) (session : FrontendSessionRecord),
      s.calls[n]? = some (.exchanged code session) →
      Runs.Passes (Runs.ofExec (connectService X).exec) connectInit events s
        (Redeems X n code session) ∧
      ∃ (k : ℕ) (flow : PendingCreatorConnectFlowRecord) (authority : CreatorAuthorityRecord)
        (issued : FrontendSessionCodeRecord),
        s.calls[k]? = some (.completed flow authority issued) ∧
        X.secretLookupHash issued.code = X.secretLookupHash code.code ∧
        session.creator = authority.creator ∧
        Runs.Passes (Runs.ofExec (connectService X).exec) connectInit events s
          (StoresAuthority X k authority) := by
  have htrue : ∀ {s e t}, True → (connectService X).exec s e = some t → True :=
    fun _ _ => trivial
  obtain ⟨hnodup, hknows⟩ := (connect_guarantees X).of_run h List.nodup_nil
    (List.forall_mem_nil _)
  have hcodes := codes_issued h
  refine ⟨?_, ⟨hnodup, Multiset.coe_eq_coe.1 hcodes⟩, ?_, ?_, ?_⟩
  · have hflows := (flows_conserved X).of_run htrue h trivial le_rfl
    have hmono := total_mono (f := fun call => token call.completed?)
      (g := fun call => token call.consumed?) (fun call => by cases call <;> simp) s.calls
    rw [← Multiset.coe_le, ← total_filterMap, ← total_filterMap]
    exact hmono.trans ((Multiset.le_add_left _ _).trans hflows)
  · have hspent := (codes_conserved X).of_run htrue h trivial le_rfl
    have hmono := total_mono
      (f := fun call => token (call.exchanged?.map fun code => X.secretLookupHash code.code))
      (g := fun call => token (call.taken?.map fun code => X.secretLookupHash code.code))
      (fun call => by cases call <;> simp) s.calls
    rw [← Multiset.coe_nodup, ← total_filterMap]
    refine Multiset.nodup_of_le (hmono.trans ((Multiset.le_add_left _ _).trans hspent)) ?_
    rw [total_filterMap, ← hcodes]
    exact Multiset.coe_nodup.2 hnodup
  · intro r hr
    have hsessions := (sessions_conserved X).of_run htrue h trivial le_rfl
    have hmem := Multiset.mem_of_le ((Multiset.le_add_right _ _).trans hsessions)
      (Multiset.mem_coe.2 (List.mem_map_of_mem hr))
    rw [total_filterMap, Multiset.mem_coe] at hmem
    obtain ⟨call, hcall, hsession⟩ := List.mem_filterMap.1 hmem
    obtain ⟨n, hn⟩ := List.mem_iff_getElem?.1 hcall
    cases call with
    | exchanged code session =>
      simp only [session?, Option.map_some, Option.some.injEq, Prod.mk.injEq]
        at hsession
      exact ⟨n, code, session, hn, hsession.1.symm, hsession.2.symm⟩
    | _ => cases hsession
  · intro n code session hn
    refine ⟨redeems_of_exchanged h hn, ?_⟩
    obtain ⟨⟨row, hrow, hhash, hcreator, -⟩, hsession, -⟩ := hknows _ (List.mem_of_getElem? hn)
    have hmem : row.codeHash ∈ s.calls.filterMap
        fun call => call.stored?.map fun code => X.secretLookupHash code.code :=
      (Multiset.coe_eq_coe.1 hcodes).mem_iff.1 (List.mem_map_of_mem hrow)
    obtain ⟨call, hcall, hstored⟩ := List.mem_filterMap.1 hmem
    obtain ⟨k, hk⟩ := List.mem_iff_getElem?.1 hcall
    cases call with
    | completed flow authority issued =>
      simp only [stored?, Option.map_some, Option.some.injEq] at hstored
      obtain ⟨hissued, row', hrow', hhash', hcreator', -⟩ := hknows _ hcall
      have hsame : row' = row :=
        List.inj_on_of_nodup_map hnodup hrow' hrow (hhash'.trans hstored)
      refine ⟨k, flow, authority, issued, hk, hstored.trans hhash, ?_,
        storesAuthority_of_completed h hk⟩
      rw [hsession, ← hcreator, ← hsame, hcreator', hissued]
    | _ => cases hstored

/-- A legacy flow, with every secret under one hash. -/
def legacyConnect : ConnectExternals where
  parseUrl _ := some ("pubkyauth", some "signin")
  secretLookupHash _ := .replicate 7

/-- What the calls of the run read. -/
def connectInput : ConnectInput where
  now := 0
  dbNow := 0
  flowId := "flow"
  authorizationUrl := .ok "pubkyauth://signin"
  legacyApproval := .ok ⟨⟨"creator"⟩, "secret"⟩
  grantApproval := .error .creatorAuthorityUnavailable
  code := "code"
  token := "token"

/-- A flow that two calls complete side by side; the code is exchanged twice. -/
def connectScript : List (Event ConnectCall ConnectInput String) :=
  [.begin (.start ⟨"https://app.example/locks/callback", "state-123"⟩), .step 0 connectInput,
    .step 0 connectInput, .begin (.complete "flow" .legacyCookie), .step 1 connectInput,
    .begin (.complete "flow" .legacyCookie), .step 2 connectInput, .step 2 connectInput,
    .step 1 connectInput, .step 1 connectInput, .step 2 connectInput, .step 1 connectInput,
    .step 1 connectInput, .begin (.exchange ⟨"code", "state-123"⟩),
    .begin (.exchange ⟨"code", "state-123"⟩), .step 3 connectInput, .step 4 connectInput,
    .step 3 connectInput]

/-- One of the two completions and one of the two exchanges succeed. -/
theorem connect_raced : ∃ (s : State ConnectTables ConnectCall) (code : FrontendSessionCodeRecord)
      (session : FrontendSessionRecord),
      (connectService legacyConnect).Run connectInit connectScript s ∧
      s.calls[3]? = some (.exchanged code session) ∧
      s.calls[2]? = some (.failed .creatorConnectFlowUnavailable) ∧
      s.calls[4]? = some (.failed .frontendSessionCodeUnavailable) ∧
      ∃ (k : ℕ) (flow : PendingCreatorConnectFlowRecord) (authority : CreatorAuthorityRecord)
        (issued : FrontendSessionCodeRecord),
        s.calls[k]? = some (.completed flow authority issued) ∧
        session.creator = authority.creator := by
  have hrun : (Runs.execList (connectService legacyConnect).exec connectInit connectScript).any
      fun s => s.calls[3]? = some (.exchanged ⟨"code", ⟨"creator"⟩, "state-123",
          "https://app.example/locks/callback", 0, Duration.seconds 300, none⟩
          ⟨"token", ⟨"creator"⟩, 0, Duration.seconds 86400⟩) ∧
        s.calls[2]? = some (.failed .creatorConnectFlowUnavailable) ∧
        s.calls[4]? = some (.failed .frontendSessionCodeUnavailable) := by
    decide +kernel
  obtain ⟨s, hexec, hcalls⟩ := (Option.any_eq_true _ _).1 hrun
  obtain ⟨hexchanged, hfailed, hfailed'⟩ := of_decide_eq_true hcalls
  have hs := Runs.run_of_execList _ hexec
  obtain ⟨-, -, -, -, hall⟩ := connect_single_use legacyConnect hs
  obtain ⟨-, k, flow, authority, issued, hk, -, hcreator, -⟩ := hall 3 _ _ hexchanged
  exact ⟨s, _, _, hs, hexchanged, hfailed, hfailed', k, flow, authority, issued, hk, hcreator⟩

end PubkyLocks
