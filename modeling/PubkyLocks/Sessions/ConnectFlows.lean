/-
  The creator connect flow: a creator's approval is turned into stored
  authority, a one-time code and a frontend session
  (`use_cases/start_creator_connect_flow.rs`,
  `use_cases/complete_creator_connect_flow.rs`,
  `use_cases/exchange_frontend_session_code.rs`), over the tables of
  `postgres/creator_connect_flows.rs`, `postgres/creator_authority.rs` and
  `postgres/frontend_sessions.rs`.
-/
import PubkyLocks.Tasks.Record
import PubkyLocks.Lib.Calls
import PubkyLocks.Lib.Table

namespace PubkyLocks

/-! ## Data -/

/-- Code outside the repository that the connect flow uses. -/
structure ConnectExternals where
  /-- `url::Url::parse`: the scheme and the host. -/
  parseUrl : String → Option (String × Option String)
  /-- `blake3::hash` of a secret, under which it is stored. -/
  secretLookupHash : String → LockHash

/-- The errors of the use cases and of their clients. -/
inductive CreatorConnectError where
  | creatorConnectFlowUnavailable
  | creatorConnectFlowExpired
  | creatorAuthorityUnavailable
  | frontendSessionCodeUnavailable
  | frontendSessionCodeAlreadyConsumed
  | frontendSessionCodeExpired
  | frontendSessionStateMismatch
  | duplicateRecord (record : String)
  | storage (message : String)
deriving DecidableEq, Repr

inductive CreatorAuthorityAuthKind where
  | legacyCookie
  | grant
deriving DecidableEq, Repr

structure PendingCreatorConnectFlowRecord where
  flowId : String
  returnTo : String
  state : String
  authorizationUrl : String
  requestedScopes : List String
  createdAt : Timestamp
  expiresAt : Timestamp
deriving DecidableEq, Repr

def PendingCreatorConnectFlowRecord.isExpiredAt (r : PendingCreatorConnectFlowRecord)
    (now : Timestamp) : Bool :=
  now ≥ r.expiresAt

structure CreatorAuthorityRecord where
  creator : CreatorPubky
  authKind : CreatorAuthorityAuthKind
  grantedScopes : List String
  secret : String
  sessionExpiresAt : Option Timestamp
  lastRevalidatedAt : Option Timestamp
deriving DecidableEq, Repr

def CreatorAuthorityRecord.isExpiredAt (a : CreatorAuthorityRecord) (now : Timestamp) : Bool :=
  a.sessionExpiresAt.any (· ≤ now)

structure LegacyCreatorConnectFlowApproval where
  creator : CreatorPubky
  sessionSecret : String
deriving DecidableEq, Repr

structure GrantCreatorConnectFlowApproval where
  creator : CreatorPubky
  grantState : String
  grantedScopes : List String
  grantExpiresAt : Timestamp
deriving DecidableEq, Repr

structure FrontendSessionCodeRecord where
  code : String
  creator : CreatorPubky
  state : String
  returnTo : String
  createdAt : Timestamp
  expiresAt : Timestamp
  consumedAt : Option Timestamp
deriving DecidableEq, Repr

def FrontendSessionCodeRecord.isExpiredAt (r : FrontendSessionCodeRecord) (now : Timestamp) :
    Bool :=
  now ≥ r.expiresAt

structure FrontendSessionRecord where
  token : String
  creator : CreatorPubky
  createdAt : Timestamp
  expiresAt : Timestamp
deriving DecidableEq, Repr

def authKind (X : ConnectExternals) (url : String) :
    Except CreatorConnectError CreatorAuthorityAuthKind :=
  match X.parseUrl url with
  | some ("pubkyauth", some "signin_grant") => .ok .grant
  | some ("pubkyauth", some "signin") => .ok .legacyCookie
  | _ => .error .creatorAuthorityUnavailable

/-! ## Tables -/

structure FrontendSessionCodeRow where
  codeHash : LockHash
  creator : CreatorPubky
  state : String
  returnTo : String
  createdAt : Timestamp
  expiresAt : Timestamp
  consumedAt : Option Timestamp
deriving DecidableEq

structure FrontendSessionRow where
  tokenHash : LockHash
  creator : CreatorPubky
  createdAt : Timestamp
  expiresAt : Timestamp
deriving DecidableEq

structure ConnectTables where
  flows : List PendingCreatorConnectFlowRecord
  authorities : List CreatorAuthorityRecord
  codes : List FrontendSessionCodeRow
  sessions : List FrontendSessionRow
deriving DecidableEq

namespace ConnectTables

def empty : ConnectTables := ⟨[], [], [], []⟩

def insertPendingCreatorConnectFlow (r : PendingCreatorConnectFlowRecord) (t : ConnectTables) :
    Except CreatorConnectError ConnectTables :=
  if t.flows.any (·.flowId == r.flowId) then
    .error (.duplicateRecord "pending_creator_connect_flow")
  else .ok { t with flows := t.flows ++ [r] }

def getPendingCreatorConnectFlow (flowId : String) (t : ConnectTables) :
    Option PendingCreatorConnectFlowRecord :=
  t.flows.find? (·.flowId == flowId)

def deletePendingCreatorConnectFlow (flowId : String) (t : ConnectTables) : ConnectTables :=
  { t with flows := t.flows.filter fun r => !(r.flowId == flowId) }

/-- The rows that `consume_pending_creator_connect_flow` deletes. -/
def consumable (flowId : String) (dbNow : Timestamp) (r : PendingCreatorConnectFlowRecord) : Bool :=
  r.flowId == flowId && decide (r.expiresAt > dbNow)

def consumePendingCreatorConnectFlow (flowId : String) (dbNow : Timestamp) (t : ConnectTables) :
    Option PendingCreatorConnectFlowRecord × ConnectTables :=
  (t.flows.find? (consumable flowId dbNow),
    { t with flows := t.flows.filter fun r => !consumable flowId dbNow r })

def upsertCreatorAuthority (a : CreatorAuthorityRecord) (t : ConnectTables) : ConnectTables :=
  { t with authorities :=
      if t.authorities.any (·.creator == a.creator) then
        Table.updateWhere (·.creator == a.creator) (fun _ => a) t.authorities
      else t.authorities ++ [a] }

def insertFrontendSessionCode (X : ConnectExternals) (r : FrontendSessionCodeRecord)
    (t : ConnectTables) : Except CreatorConnectError ConnectTables :=
  if t.codes.any (·.codeHash == X.secretLookupHash r.code) then
    .error (.duplicateRecord "frontend_session_code")
  else .ok { t with codes := t.codes ++ [⟨X.secretLookupHash r.code, r.creator, r.state,
    r.returnTo, r.createdAt, r.expiresAt, r.consumedAt⟩] }

def unconsumed (codeHash : LockHash) (r : FrontendSessionCodeRow) : Bool :=
  r.codeHash == codeHash && r.consumedAt.isNone

/-- `consume_frontend_session_code`.  The statement reads the row of its snapshot
    and returns it if its update finds the code unconsumed; a row differs from an
    older version of itself in `consumed_at` only. -/
def consumeFrontendSessionCode (X : ConnectExternals) (code : String) (now : Timestamp)
    (t : ConnectTables) : Option FrontendSessionCodeRecord × ConnectTables :=
  let hash := X.secretLookupHash code
  ((t.codes.find? (unconsumed hash)).map fun r =>
      ⟨code, r.creator, r.state, r.returnTo, r.createdAt, r.expiresAt, r.consumedAt⟩,
    { t with codes :=
        Table.updateWhere (unconsumed hash) (fun r => { r with consumedAt := some now }) t.codes })

def insertFrontendSession (X : ConnectExternals) (r : FrontendSessionRecord) (t : ConnectTables) :
    Except CreatorConnectError ConnectTables :=
  if t.sessions.any (·.tokenHash == X.secretLookupHash r.token) then
    .error (.duplicateRecord "frontend_session")
  else .ok { t with sessions :=
    t.sessions ++ [⟨X.secretLookupHash r.token, r.creator, r.createdAt, r.expiresAt⟩] }

def deleteFrontendSession (X : ConnectExternals) (token : String) (t : ConnectTables) :
    ConnectTables :=
  { t with sessions := t.sessions.filter fun r => !(r.tokenHash == X.secretLookupHash token) }

end ConnectTables

/-! ## Use cases -/

def CREATOR_CONNECT_FLOW_TTL : Duration := Duration.seconds 300

def FRONTEND_SESSION_CODE_TTL : Duration := Duration.seconds 300

def FRONTEND_SESSION_TTL : Duration := Duration.seconds 86400

def DEFAULT_REQUESTED_SCOPES : List String := ["/pub/app.locks/:rw", "/priv/app.locks/:rw"]

structure StartCreatorConnectFlowRequest where
  returnTo : String
  state : String
deriving DecidableEq, Repr

structure ExchangeFrontendSessionCodeRequest where
  code : String
  state : String
deriving DecidableEq, Repr

def validateStartRequest (r : StartCreatorConnectFlowRequest) : Except CreatorConnectError Unit :=
  if Text.trim r.returnTo = "" then .error (.storage "creator connect return_to is required")
  else if Text.trim r.state = "" then .error (.storage "creator connect state is required")
  else .ok ()

/-- Where a call stands.  The response of a completed call is made of the fields
    of its code, the response of an exchange of those of its session. -/
inductive ConnectCall where
  | start (request : StartCreatorConnectFlowRequest)
  | insertingFlow (flow : PendingCreatorConnectFlowRecord)
  | started (flow : PendingCreatorConnectFlowRecord)
  | complete (flowId : String) (client : CreatorAuthorityAuthKind)
  | deletingFlow (flowId : String)
  | awaitingApproval (client : CreatorAuthorityAuthKind) (pending : PendingCreatorConnectFlowRecord)
      (now : Timestamp)
  | consumingFlow (pending : PendingCreatorConnectFlowRecord) (authority : CreatorAuthorityRecord)
  | storingAuthority (consumed : PendingCreatorConnectFlowRecord)
      (authority : CreatorAuthorityRecord) (committedAt : Timestamp)
  | storingCode (consumed : PendingCreatorConnectFlowRecord) (authority : CreatorAuthorityRecord)
      (committedAt : Timestamp)
  | completed (consumed : PendingCreatorConnectFlowRecord) (authority : CreatorAuthorityRecord)
      (code : FrontendSessionCodeRecord)
  | exchange (request : ExchangeFrontendSessionCodeRequest)
  | storingSession (code : FrontendSessionCodeRecord) (now : Timestamp)
  | exchanged (code : FrontendSessionCodeRecord) (session : FrontendSessionRecord)
  | failed (error : CreatorConnectError)
deriving DecidableEq

/-- What a call reads at a step: the clocks, the generators and the clients. -/
structure ConnectInput where
  now : Timestamp
  dbNow : Timestamp
  flowId : String
  authorizationUrl : Except CreatorConnectError String
  legacyApproval : Except CreatorConnectError LegacyCreatorConnectFlowApproval
  grantApproval : Except CreatorConnectError GrantCreatorConnectFlowApproval
  code : String
  token : String

/-- The authority that an approval grants. -/
def approvedAuthority (client : CreatorAuthorityAuthKind)
    (pending : PendingCreatorConnectFlowRecord) (now : Timestamp) (i : ConnectInput) :
    Except CreatorConnectError CreatorAuthorityRecord :=
  match client with
  | .grant => i.grantApproval.map fun approval =>
    ⟨approval.creator, .grant, approval.grantedScopes, approval.grantState,
      some approval.grantExpiresAt, some now⟩
  | .legacyCookie => i.legacyApproval.map fun approval =>
    ⟨approval.creator, .legacyCookie, pending.requestedScopes, approval.sessionSecret, none,
      some now⟩

namespace ConnectCall

/-- A call as a use case makes it. -/
def starts : ConnectCall → Bool
  | start _ | complete _ _ | exchange _ => true
  | _ => false

def onStart (request : StartCreatorConnectFlowRequest) (i : ConnectInput) : ConnectCall :=
  match validateStartRequest request, i.authorizationUrl with
  | .error e, _ => failed e
  | .ok _, .error e => failed e
  | .ok _, .ok url => insertingFlow
    { flowId := i.flowId, returnTo := request.returnTo, state := request.state,
      authorizationUrl := url, requestedScopes := DEFAULT_REQUESTED_SCOPES, createdAt := i.now,
      expiresAt := i.now + CREATOR_CONNECT_FLOW_TTL }

def onPending (X : ConnectExternals) (client : CreatorAuthorityAuthKind) (i : ConnectInput) :
    Option PendingCreatorConnectFlowRecord → ConnectCall
  | none => failed .creatorConnectFlowUnavailable
  | some pending =>
    if pending.isExpiredAt i.now then deletingFlow pending.flowId
    else match authKind X pending.authorizationUrl with
      | .error e => failed e
      | .ok kind =>
        if kind ≠ client then failed .creatorAuthorityUnavailable
        else awaitingApproval client pending i.now

def onApproval (client : CreatorAuthorityAuthKind) (pending : PendingCreatorConnectFlowRecord)
    (now : Timestamp) (i : ConnectInput) : ConnectCall :=
  match approvedAuthority client pending now i with
  | .error e => failed e
  | .ok authority =>
    if pending.isExpiredAt i.now || authority.isExpiredAt i.now then
      failed .creatorConnectFlowExpired
    else consumingFlow pending authority

def onConsumed (pending : PendingCreatorConnectFlowRecord) (authority : CreatorAuthorityRecord)
    (i : ConnectInput) (row : Option PendingCreatorConnectFlowRecord) : ConnectCall :=
  match row.filter (· = pending) with
  | none => failed .creatorConnectFlowUnavailable
  | some consumed =>
    if consumed.isExpiredAt i.now || authority.isExpiredAt i.now then
      failed .creatorConnectFlowExpired
    else storingAuthority consumed { authority with lastRevalidatedAt := some i.now } i.now

def issuedCode (consumed : PendingCreatorConnectFlowRecord) (authority : CreatorAuthorityRecord)
    (committedAt : Timestamp) (code : String) : FrontendSessionCodeRecord :=
  { code, creator := authority.creator, state := consumed.state, returnTo := consumed.returnTo,
    createdAt := committedAt, expiresAt := committedAt + FRONTEND_SESSION_CODE_TTL,
    consumedAt := none }

def onCode (request : ExchangeFrontendSessionCodeRequest) (now : Timestamp) :
    Option FrontendSessionCodeRecord → ConnectCall
  | none => failed .frontendSessionCodeUnavailable
  | some code =>
    if code.consumedAt.isSome then failed .frontendSessionCodeAlreadyConsumed
    else if code.isExpiredAt now then failed .frontendSessionCodeExpired
    else if code.state ≠ request.state then failed .frontendSessionStateMismatch
    else storingSession code now

def issuedSession (code : FrontendSessionCodeRecord) (now : Timestamp) (token : String) :
    FrontendSessionRecord :=
  ⟨token, code.creator, now, now + FRONTEND_SESSION_TTL⟩

/-- A step of a call: the statement or the remote call it waits for, and what
    follows up to the next one. -/
def step (X : ConnectExternals) :
    ConnectCall → ConnectInput → ConnectTables → Option (ConnectCall × ConnectTables)
  | start request, i, t => some (onStart request i, t)
  | insertingFlow flow, _, t =>
    match t.insertPendingCreatorConnectFlow flow with
    | .error e => some (failed e, t)
    | .ok t' => some (started flow, t')
  | complete flowId client, i, t =>
    some (onPending X client i (t.getPendingCreatorConnectFlow flowId), t)
  | deletingFlow flowId, _, t =>
    some (failed .creatorConnectFlowExpired, t.deletePendingCreatorConnectFlow flowId)
  | awaitingApproval client pending now, i, t => some (onApproval client pending now i, t)
  | consumingFlow pending authority, i, t =>
    let (row, t') := t.consumePendingCreatorConnectFlow pending.flowId i.dbNow
    some (onConsumed pending authority i row, t')
  | storingAuthority consumed authority committedAt, _, t =>
    some (storingCode consumed authority committedAt, t.upsertCreatorAuthority authority)
  | storingCode consumed authority committedAt, i, t =>
    let code := issuedCode consumed authority committedAt i.code
    match t.insertFrontendSessionCode X code with
    | .error e => some (failed e, t)
    | .ok t' => some (completed consumed authority code, t')
  | exchange request, i, t =>
    let (row, t') := t.consumeFrontendSessionCode X request.code i.now
    some (onCode request i.now row, t')
  | storingSession code now, i, t =>
    let session := issuedSession code now i.token
    match t.insertFrontendSession X session with
    | .error e => some (failed e, t)
    | .ok t' => some (exchanged code session, t')
  | started _, _, _ | completed _ _ _, _, _ | exchanged _ _, _, _ | failed _, _, _ => none

end ConnectCall

/-- The connect flow as a service; a session may also be deleted. -/
def connectService (X : ConnectExternals) :
    Calls.Service ConnectTables ConnectCall ConnectInput String where
  starts := ConnectCall.starts
  step := ConnectCall.step X
  other token t := some (t.deleteFrontendSession X token)

def connectInit : Calls.State ConnectTables ConnectCall := ⟨.empty, []⟩

end PubkyLocks
