import TornadoRelayer.Quote
import TornadoRelayer.StubData

/-! The relayer's `rpc.ts`: what it makes of a posted body, request by request, and which of
them reach the service. -/
namespace TornadoRelayer.Rpc

open EventLoop JavaScript RelayerService Quoting

/-- What the server casts without looking further. -/
structure Cast where
  userOperation : Json → RpcUserOperation
  context : Json → SponsorContext

inductive RpcResult where
  | status (status : Status)
  | quote (quote : Json)
  | stub (stub : StubDataResult)
  | signed (issued : Issued)

structure RpcFailure where
  code : Int
  message : String
  deriving DecidableEq

/-- A response, its version apart: a result or an error, never both. -/
structure JsonRpcResponse where
  id : Json
  outcome : Except RpcFailure RpcResult

/-! ### Parameters -/

/-- `req.params ?? []`. -/
def requestParams (req : Json) : Json :=
  match req.field "params" with
  | none | some .null => .array []
  | some params => params

/-- `const [op, entryPoint, chainId, context] = params`. -/
def destructure (params : Json) : Except Thrown (List Json) :=
  match params with
  | .array items => .ok items
  | .string text => .ok (text.toList.map fun c => .string (String.ofList [c]))
  | _ => .error (.error "params is not iterable")

/-- `params[0] ?? {}`. -/
def firstParam (params : Json) : Json :=
  match params with
  | .array (p :: _) => p
  | params => (params.field "0").getD .null

/-- A text of this kind. -/
def isText (value : Option Json) (is : String → Bool) : Bool :=
  match value with
  | some (.string text) => is text
  | _ => false

/-- The lower case of ASCII; no other letter has a hex digit or an `x` for its lower case. -/
def toLowerCase (text : String) : List Char := text.toList.map Char.toLower

/-- `context ?? {}`. -/
def orEmpty (context : Option Json) : Json :=
  match context with
  | none | some .null => .object []
  | some context => context

def parseSponsorParams (cast : Cast) (s : RelayerService) (params : Json) :
    Except Thrown (RpcUserOperation × SponsorContext) := do
  let items ← destructure params
  let op := (items[0]? : Option Json).getD .null
  let entryPoint : Option Json := items[1]?
  let chainId : Option Json := items[2]?
  let context : Option Json := items[3]?
  if ¬isText (op.field "sender") isAddress ∨ ¬isText (op.field "callData") isHex then
    throw (rpcError "invalid userOperation")
  let expected := addressText s.config.entryPoint
  if ¬isText entryPoint fun text => toLowerCase text = toLowerCase expected then
    throw (rpcError s!"unsupported entryPoint; expected {expected}")
  let cid ← hexToBigInt chainId
  if cid ≠ s.config.chainId then throw (rpcError s!"unsupported chainId {cid}")
  return (cast.userOperation op, cast.context (orEmpty context))

/-! ### Requests -/

variable (platform : Platform) (cast : Cast) (s : QuotingService)

/-- A quote awaits nothing that anything else depends on: what its calls come back with is
given. -/
def dispatch (answers : QuoteAnswers) (method : String) (params : Json) : Async RpcResult :=
  if method = "tornado_status" then do return .status (← s.status)
  else if method = "tornado_quote" then do
    return .quote (← tornadoQuote s (firstParam params) answers)
  else if method = "pm_getPaymasterStubData" then do
    let (op, context) ← parseSponsorParams cast s.toRelayerService params
    return .stub (← s.stubData platform op context)
  else if method = "pm_getPaymasterData" then do
    let (op, context) ← parseSponsorParams cast s.toRelayerService params
    return .signed (← s.sign platform op context)
  else throw (.validation s!"Method not found: {method}" (-32601))

def requestMethod (req : Json) : Except Thrown String :=
  match req.field "jsonrpc", req.field "method" with
  | some (.string version), some (.string method) =>
    if version = "2.0" then .ok method else .error (.validation "Invalid Request" (-32600))
  | _, _ => .error (.validation "Invalid Request" (-32600))

/-- `req?.id ?? null`. -/
def requestId (req : Json) : Json := (req.field "id").getD .null

def failure : Thrown → RpcFailure
  | .validation message code => ⟨code, message⟩
  | .error message => ⟨-32603, message⟩
  | .viem name => ⟨-32603, name⟩

def respond (id : Json) (r : Except Thrown RpcResult) : JsonRpcResponse := ⟨id, r.mapError failure⟩

/-- What the `try` of `handle` runs. -/
def serve (answers : QuoteAnswers) (req : Json) : Async RpcResult := do
  let method ← requestMethod req
  dispatch platform cast s answers method (requestParams req)

def handle (answers : QuoteAnswers) (req : Json) : Async JsonRpcResponse :=
  Program.settled (I := serviceInterface) (respond (requestId req)) (serve platform cast s answers req)

/-- The replies to a posted body, where every request gets some answers and runs somehow,
together with the others of its batch. -/
inductive Replies : Option Json → Nat → List JsonRpcResponse → Prop where
  | unparsed : Replies none 400 [⟨.null, .error ⟨-32700, "Parse error"⟩⟩]
  | batch {items : List Json} {responses : List JsonRpcResponse} :
    List.Forall₂ (fun req response => ∃ answers log,
      ServiceRuns (handle platform cast s answers req) log (.ok response)) items responses →
    Replies (some (.array items)) 200 responses
  | single {req : Json} {response : JsonRpcResponse} {answers : QuoteAnswers} {log : ServiceLog} :
    (∀ items, req ≠ .array items) →
    ServiceRuns (handle platform cast s answers req) log (.ok response) →
    Replies (some req) 200 [response]

/-- A result as it is sent. A quote is JSON already; the client library writes the others. -/
def RpcResult.json (write : RpcResult → Json) : RpcResult → Json
  | .quote json => json
  | result => write result

/-- A response as it is sent. -/
def JsonRpcResponse.json (write : RpcResult → Json) (response : JsonRpcResponse) : Json :=
  .object (("jsonrpc",.string "2.0") :: ("id",response.id) :: match response.outcome with
    | .ok result => [("result",result.json write)]
    | .error failure => [("error",.object
      [("code",.number failure.code),("message",.string failure.message)])])

/-! ### What reaches the service -/

/-- A sponsor request that passes the server's checks: an operation whose sender and callData
are texts of their kind, for this EntryPoint and this chain. -/
inductive Accepted (cast : Cast) (s : RelayerService) (req : Json) (method : String) :
    RpcUserOperation → SponsorContext → Prop where
  | intro {op chainId : Json} {entryPoint sender callData : String} {rest : List Json} :
    requestMethod req = .ok method →
    requestParams req = .array (op :: .string entryPoint :: chainId :: rest) →
    op.field "sender" = some (.string sender) → isAddress sender = true →
    op.field "callData" = some (.string callData) → isHex callData = true →
    toLowerCase entryPoint = toLowerCase (addressText s.config.entryPoint) →
    bigIntOfJson chainId = some s.config.chainId →
    Accepted cast s req method (cast.userOperation op) (cast.context (orEmpty rest.head?))

variable {platform cast s} {answers : QuoteAnswers} {req : Json} {log : ServiceLog}
  {r : RelayerService} {op : RpcUserOperation} {context : SponsorContext}

theorem isText_iff {value : Option Json} {is : String → Bool} :
    isText value is = true ↔ ∃ text, value = some (.string text) ∧ is text = true := by
  unfold isText
  split <;> simp_all

theorem hexToBigInt_ok_iff {value : Option Json} {n : Int} :
    hexToBigInt value = .ok n ↔ ∃ v, value = some v ∧ bigIntOfJson v = some n := by
  cases value with
  | none => simp [hexToBigInt]
  | some v =>
    rw [hexToBigInt,parseBigInt]
    cases read : bigIntOfJson v <;> simp [read]

/-- An array comes apart into its items; those of a text are texts. -/
theorem destructure_object {params : Json} {items : List Json} {value : Json}
    (apart : destructure params = .ok items) (member : value ∈ items) {name : String} {v : Json}
    (found : value.field name = some v) : params = .array items := by
  cases params with
  | array items' =>
    cases apart
    rfl
  | string text =>
    cases apart
    obtain ⟨c,_,rfl⟩ := List.mem_map.mp member
    simp [Json.field] at found
  | _ => cases apart

theorem parseSponsorParams_ok {params : Json}
    (parsed : parseSponsorParams cast r params = .ok (op,context)) :
    ∃ (item chainId : Json) (entryPoint sender callData : String) (rest : List Json),
      params = .array (item :: .string entryPoint :: chainId :: rest) ∧
      item.field "sender" = some (.string sender) ∧ isAddress sender = true ∧
      item.field "callData" = some (.string callData) ∧ isHex callData = true ∧
      toLowerCase entryPoint = toLowerCase (addressText r.config.entryPoint) ∧
      bigIntOfJson chainId = some r.config.chainId ∧ op = cast.userOperation item ∧
      context = cast.context (orEmpty rest.head?) := by
  obtain ⟨items,apart,parsed⟩ := bind_ok_iff.mp parsed
  obtain ⟨shaped,parsed⟩ := throw_or_ok parsed
  obtain ⟨named,parsed⟩ := throw_or_ok parsed
  obtain ⟨cid,read,parsed⟩ := bind_ok_iff.mp parsed
  obtain ⟨same,parsed⟩ := throw_or_ok parsed
  cases parsed
  rw [not_or,not_not,not_not,isText_iff,isText_iff] at shaped
  rw [not_not,isText_iff] at named
  obtain ⟨⟨sender,from_,address⟩,callData,called,hex⟩ := shaped
  obtain ⟨entryPoint,second,lower⟩ := named
  obtain ⟨chainId,third,number⟩ := hexToBigInt_ok_iff.mp read
  cases items with
  | nil => simp at second
  | cons item items =>
    cases items with
    | nil => simp at second
    | cons item' items =>
      cases items with
      | nil => simp at third
      | cons item'' rest =>
        simp only [List.getElem?_cons_zero,List.getElem?_cons_succ,Option.getD_some,
          Option.some.injEq] at from_ called second third
        subst second third
        have whole := destructure_object apart (List.mem_cons_self ..) from_
        refine ⟨item,_,entryPoint,sender,callData,rest,whole,from_,address,called,hex,?_,?_,rfl,?_⟩
        · simpa using lower
        · rw [number,not_not.mp same]
        · simp [List.head?_eq_getElem?]

theorem accepted_of_parsed {method : String} (read : requestMethod req = .ok method)
    (parsed : parseSponsorParams cast r (requestParams req) = .ok (op,context)) :
    Accepted cast r req method op context := by
  obtain ⟨item,chainId,entryPoint,sender,callData,rest,params,from_,address,called,hex,lower,number,
    rfl,rfl⟩ := parseSponsorParams_ok parsed
  exact .intro read params from_ address called hex lower number

/-- Reserves a note, gives one back or records a signature. -/
def Writes : Logged serviceInterface → Prop
  | .performed (Op.reserve ..) _ | .performed (Op.release ..) _ | .performed (Op.set ..) _ => True
  | .performed (Op.writeFileSync _) _ | .performed Op.renameSync _ => True
  | _ => False

theorem status_writes (r : RelayerService) : r.status.Logs (¬Writes ·) := by
  have now : nowSeconds.Logs (¬Writes ·) := logs_bind (logs_act fun _ => id) fun _ => logs_done _
  refine logs_bind now fun now => logs_bind (logs_act fun _ => id) fun _ => ?_
  refine logs_bind (logs_ask fun _ => id) fun live => logs_bind (logs_act fun _ => id) fun notes => ?_
  exact logs_done _

theorem stubData_writes (r : RelayerService) (op : RpcUserOperation) (context : SponsorContext) :
    (r.stubData platform op context).Logs (¬Writes ·) :=
  logs_bind (logs_bind (logs_act fun _ => id) fun _ => logs_done _) fun _ => logs_done _

/-- Only a sponsor request whose parameters pass writes anything. -/
theorem dispatch_writes {method : String} {params : Json}
    (unaccepted : method = "pm_getPaymasterData" → ∀ op context,
      parseSponsorParams cast s.toRelayerService params ≠ .ok (op,context)) :
    (dispatch platform cast s answers method params).Logs (¬Writes ·) := by
  unfold dispatch
  split
  · exact logs_bind (status_writes _) fun _ => logs_done _
  split
  · exact logs_bind (logs_done _) fun _ => logs_done _
  split
  · refine logs_bind (logs_done _) fun parsed => ?_
    exact logs_bind (stubData_writes _ _ _) fun _ => logs_done _
  split
  · next signing =>
    cases parsed : parseSponsorParams cast s.toRelayerService params with
    | error e => exact logs_done _
    | ok accepted => exact absurd parsed (unaccepted signing _ _)
  · exact logs_done _

/-- A signature comes of no other method. -/
theorem dispatch_signed {method : String} {params : Json} {issued : Issued}
    (ran : ServiceRuns (dispatch platform cast s answers method params) log (.ok (.signed issued))) :
    method = "pm_getPaymasterData" ∧ ∃ op context,
      parseSponsorParams cast s.toRelayerService params = .ok (op,context) ∧
      ServiceRuns (s.sign platform op context) log (.ok issued) := by
  have other {α : Type} {p : Async α} {f : α → RpcResult} (apart : ∀ a, f a ≠ .signed issued) :
      ¬ServiceRuns (do return f (← p)) log (.ok (.signed issued)) := by
    intro ran
    obtain ⟨a,_,_,_,returns,_⟩ := runs_bind_ok ran
    obtain ⟨_,returned⟩ := runs_done returns
    exact apart a (Except.ok.inj returned).symm
  unfold dispatch at ran
  split at ran
  · exact absurd ran (other (by simp))
  split at ran
  · obtain ⟨_,_,_,_,returns,_⟩ := runs_bind_ok ran
    obtain ⟨_,returned⟩ := runs_done returns
    cases returned
  split at ran
  · obtain ⟨parsed,_,_,_,stubbing,_⟩ := runs_bind_ok ran
    obtain ⟨_,_,_,_,returns,_⟩ := runs_bind_ok stubbing
    obtain ⟨_,returned⟩ := runs_done returns
    cases returned
  split at ran
  · next signing =>
    obtain ⟨⟨op,context⟩,_,_,parsing,signs,rfl⟩ := runs_bind_ok ran
    obtain ⟨rfl,parsed⟩ := runs_done parsing
    obtain ⟨issued',_,_,signed,returns,rfl⟩ := runs_bind_ok signs
    obtain ⟨rfl,returned⟩ := runs_done returns
    cases returned
    rw [List.nil_append,List.append_nil]
    exact ⟨signing,op,context,parsed.symm,signed⟩
  · obtain ⟨_,returned⟩ := runs_done ran
    cases returned

/-! ### The protocol -/

/-- What a request gets: an answer of its own id; `-32600` and `-32601` for what is no request
or of no method; for a sponsor request that does not pass, `-32602`, or `-32603` where reading
it throws; a signature only for one that passes, and nothing is written for any other. -/
structure Follows (platform : Platform) (cast : Cast) (s : QuotingService) (req : Json)
    (log : ServiceLog) (response : JsonRpcResponse) : Prop where
  id : response.id = requestId req
  invalid : (∀ method, requestMethod req ≠ .ok method) →
    log = [] ∧ response.outcome = .error ⟨-32600,"Invalid Request"⟩
  unknown : ∀ method, requestMethod req = .ok method →
    method ∉ ["tornado_status","tornado_quote","pm_getPaymasterStubData","pm_getPaymasterData"] →
    log = [] ∧ response.outcome = .error ⟨-32601,s!"Method not found: {method}"⟩
  refused : ∀ method, requestMethod req = .ok method →
    method ∈ ["pm_getPaymasterStubData","pm_getPaymasterData"] →
    (∀ op context, ¬Accepted cast s.toRelayerService req method op context) →
    log = [] ∧ ∃ message code, response.outcome = .error ⟨code,message⟩ ∧ code ∈ [-32602,-32603]
  signed : ∀ issued, response.outcome = .ok (.signed issued) → ∃ op context,
    Accepted cast s.toRelayerService req "pm_getPaymasterData" op context ∧
      ServiceRuns (s.sign platform op context) log (.ok issued)
  writes : ∀ e ∈ log, Writes e → ∃ op context,
    Accepted cast s.toRelayerService req "pm_getPaymasterData" op context

theorem requestMethod_error {thrown : Thrown} (unread : requestMethod req = .error thrown) :
    thrown = .validation "Invalid Request" (-32600) := by
  unfold requestMethod at unread
  split at unread
  · split at unread
    · cases unread
    · exact (Except.error.inj unread).symm
  · exact (Except.error.inj unread).symm

theorem throw_or_error {c : Prop} [Decidable c] {e e' : Thrown} {f : α → Except Thrown β}
    {x : Except Thrown β} (failed : (if c then throw e >>= f else x) = .error e') :
    e' = e ∨ x = .error e' := by
  split at failed
  · exact .inl (Except.error.inj failed).symm
  · exact .inr failed

theorem bind_error {x : Except Thrown α} {f : α → Except Thrown β} {e : Thrown}
    (failed : x >>= f = .error e) : x = .error e ∨ ∃ a, x = .ok a ∧ f a = .error e := by
  cases x with
  | error e' =>
    change Except.error e' = _ at failed
    exact .inl (by rw [Except.error.inj failed])
  | ok a => exact .inr ⟨a,rfl,failed⟩

/-- A sponsor request that cannot be read is refused with one of two codes. -/
theorem parseSponsorParams_error {params : Json} {thrown : Thrown}
    (failed : parseSponsorParams cast r params = .error thrown) :
    (failure thrown).code ∈ [-32602,-32603] := by
  rcases bind_error failed with apart | ⟨items,_,failed⟩
  · unfold destructure at apart
    split at apart
    · cases apart
    · cases apart
    · cases apart
      simp [failure]
  rcases throw_or_error failed with rfl | failed
  · simp [failure,rpcError]
  rcases throw_or_error failed with rfl | failed
  · simp [failure,rpcError]
  rcases bind_error failed with read | ⟨cid,_,failed⟩
  · cases value : (items[2]? : Option Json) with
    | none =>
      rw [value] at read
      cases read
      simp [failure]
    | some v =>
      rw [value,hexToBigInt,parseBigInt] at read
      split at read
      · cases read
      · cases read
        simp [failure]
  rcases throw_or_error failed with rfl | failed
  · simp [failure,rpcError]
  · cases failed

theorem dispatch_unknown {method : String} {params : Json} {served : Except Thrown RpcResult}
    (unknown : method ∉
      ["tornado_status","tornado_quote","pm_getPaymasterStubData","pm_getPaymasterData"])
    (ran : ServiceRuns (dispatch platform cast s answers method params) log served) :
    log = [] ∧ served.mapError failure = .error ⟨-32601,s!"Method not found: {method}"⟩ := by
  simp only [List.mem_cons,List.not_mem_nil,or_false,not_or] at unknown
  simp only [dispatch,unknown,if_false] at ran
  obtain ⟨rfl,rfl⟩ := runs_done ran
  exact ⟨rfl,rfl⟩

theorem dispatch_refused {method : String} {params : Json} {served : Except Thrown RpcResult}
    (sponsor : method ∈ ["pm_getPaymasterStubData","pm_getPaymasterData"])
    (unparsed : ∀ op context,
      parseSponsorParams cast s.toRelayerService params ≠ .ok (op,context))
    (ran : ServiceRuns (dispatch platform cast s answers method params) log served) :
    log = [] ∧ ∃ thrown, served = .error thrown ∧
      parseSponsorParams cast s.toRelayerService params = .error thrown := by
  cases parsed : parseSponsorParams cast s.toRelayerService params with
  | ok accepted => exact absurd parsed (unparsed _ _)
  | error thrown =>
    simp only [List.mem_cons,List.not_mem_nil,or_false] at sponsor
    rcases sponsor with rfl | rfl
    all_goals
      simp only [dispatch,String.reduceEq,if_false,if_true,parsed] at ran
      obtain ⟨rfl,rfl⟩ := runs_done ran
      exact ⟨rfl,_,rfl,rfl⟩

theorem mapError_ok {x : Except ε α} {f : ε → ε'} {a : α} (mapped : x.mapError f = .ok a) :
    x = .ok a := by
  cases x with
  | error e => cases mapped
  | ok b => exact congrArg Except.ok (Except.ok.inj mapped)

/-- Whatever runs for it, a request is answered by the protocol. -/
theorem handle_follows {out : Except Thrown JsonRpcResponse}
    (ran : ServiceRuns (handle platform cast s answers req) log out) :
    ∃ response, out = .ok response ∧ Follows platform cast s req log response := by
  obtain ⟨served,serving,rfl⟩ := runs_settled_iff.mp ran
  refine ⟨_,rfl,?_⟩
  cases read : requestMethod req with
  | error thrown =>
    have answered : log = [] ∧ served = .error thrown := by
      unfold serve at serving
      rw [read] at serving
      exact runs_done serving
    obtain ⟨rfl,rfl⟩ := answered
    obtain rfl := requestMethod_error read
    constructor
    · rfl
    · exact fun _ => ⟨rfl,rfl⟩
    · simp [read]
    · simp [read]
    · rintro issued ⟨⟩
    · simp
  | ok method =>
    have went : ServiceRuns (dispatch platform cast s answers method (requestParams req)) log served := by
      unfold serve at serving
      rw [read] at serving
      exact serving
    constructor
    · rfl
    · exact fun unread => absurd read (unread method)
    · intro method' read' unknown
      cases read.symm.trans read'
      exact dispatch_unknown unknown went
    · intro method' read' sponsor unaccepted
      cases read.symm.trans read'
      have unparsed (op : RpcUserOperation) (context : SponsorContext) :
          parseSponsorParams cast s.toRelayerService (requestParams req) ≠ .ok (op,context) :=
        fun parsed => unaccepted op context (accepted_of_parsed read parsed)
      obtain ⟨rfl,thrown,rfl,failed⟩ := dispatch_refused sponsor unparsed went
      exact ⟨rfl,_,_,rfl,parseSponsorParams_error failed⟩
    · intro issued returned
      obtain rfl := mapError_ok returned
      obtain ⟨rfl,op,context,parsed,signs⟩ := dispatch_signed went
      exact ⟨op,context,accepted_of_parsed read parsed,signs⟩
    · intro e member writes
      by_contra unaccepted
      refine dispatch_writes (fun signing op context parsed => ?_) log served went e member writes
      subst signing
      exact unaccepted ⟨op,context,accepted_of_parsed read parsed⟩

/-- The requests of a body: its items when it is a batch, else itself. -/
def requests : Json → List Json
  | .array items => items
  | req => [req]

/-- Every body gets its replies, whatever the service's calls come back with: one for each
request, in order, by the protocol. -/
theorem replies_follow (platform : Platform) (cast : Cast) (s : QuotingService) :
    (∀ (answer : (query : Query) → Except Thrown query.Answer) (result : (op : Op) → op.Result)
      (answers : QuoteAnswers) (req : Json), ∃ response,
        ServiceRuns (handle platform cast s answers req)
          ((handle platform cast s answers req).trace answer result) (.ok response)) ∧
    (∀ code responses, Replies platform cast s none code responses →
      code = 400 ∧ responses = [⟨.null,.error ⟨-32700,"Parse error"⟩⟩]) ∧
    ∀ body code responses, Replies platform cast s (some body) code responses →
      code = 200 ∧ List.Forall₂ (fun req response => ∃ log,
        Follows platform cast s req log response) (requests body) responses := by
  refine ⟨?_,?_,?_⟩
  · intro answer result answers req
    have ran := runs_trace (I := serviceInterface) answer result (handle platform cast s answers req)
    obtain ⟨response,same,_⟩ := handle_follows ran
    rw [same] at ran
    exact ⟨response,ran⟩
  · rintro code responses ⟨⟩
    exact ⟨rfl,rfl⟩
  · intro body code responses replied
    cases replied with
    | batch ran =>
      refine ⟨rfl,ran.imp ?_⟩
      rintro req response ⟨answers,log,handled⟩
      obtain ⟨_,same,follows⟩ := handle_follows handled
      cases same
      exact ⟨log,follows⟩
    | single alone handled =>
      obtain ⟨_,same,follows⟩ := handle_follows handled
      cases same
      refine ⟨rfl,?_⟩
      unfold requests
      split
      · exact absurd rfl (alone _)
      · exact .cons ⟨_,follows⟩ .nil

def rpcService : QuotingService where
  toRelayerService := masterService
  gasPriceMarginBps := 11000

/-- Any operation is taken for the sample. -/
def sampleCast : Cast where
  userOperation _ := sampleOp 1 SIMPLE_7702_ACCOUNT
  context _ := ⟨none⟩

def sponsorRequest : Json := .object [("jsonrpc",.string "2.0"),("id",.string "7"),
  ("method",.string "pm_getPaymasterData"),("params",.array [
    .object [("sender",.string (toHex sampleAccount.bytes)),("callData",.string "0x")],
    .string (toHex masterService.config.entryPoint.bytes),.string "0x1"])]

/-- The response carries a signature. -/
def isSigned : Except Thrown JsonRpcResponse → Bool
  | .ok ⟨_,.ok (.signed _)⟩ => true
  | _ => false

theorem isSigned_iff {r : Except Thrown JsonRpcResponse} :
    isSigned r = true ↔ ∃ id issued, r = .ok ⟨id,.ok (.signed issued)⟩ := by
  unfold isSigned
  split <;> simp_all

/-- A batch of a request that is signed and a text that is no request. -/
theorem replies_follow_batch : ∃ issued response, Replies (samplePlatform [1]) sampleCast rpcService
      (some (.array [sponsorRequest,.string "ping"])) 200 [⟨.string "7",.ok (.signed issued)⟩,response] ∧
    ∃ log, Follows (samplePlatform [1]) sampleCast rpcService (.string "ping") log response := by
  let quoted : QuoteAnswers := ⟨.error (.error ""),.error (.error ""),.error (.error "")⟩
  have follow := replies_follow (samplePlatform [1]) sampleCast rpcService
  obtain ⟨response,answered⟩ := follow.1 (sampleAnswers 0) sampleResults quoted (.string "ping")
  have signed := runs_trace (I := serviceInterface) (sampleAnswers (10 ^ 15)) sampleResults
    (handle (samplePlatform [1]) sampleCast rpcService quoted sponsorRequest)
  have signs : isSigned ((handle (samplePlatform [1]) sampleCast rpcService quoted sponsorRequest).eval
      (I := serviceInterface) (sampleAnswers (10 ^ 15)) sampleResults) = true := by
    decide +kernel
  obtain ⟨id,issued,same⟩ := isSigned_iff.mp signs
  rw [same] at signed
  obtain ⟨_,returned,follows⟩ := handle_follows signed
  cases returned
  obtain rfl : id = .string "7" := follows.id
  have replied : Replies (samplePlatform [1]) sampleCast rpcService
      (some (.array [sponsorRequest,.string "ping"])) 200
      [⟨.string "7",.ok (.signed issued)⟩,response] :=
    .batch (.cons ⟨_,_,signed⟩ (.cons ⟨_,_,answered⟩ .nil))
  obtain ⟨_,each⟩ := follow.2.2 _ _ _ replied
  cases each with
  | cons _ rest =>
    cases rest with
    | cons ping _ => exact ⟨issued,response,replied,ping⟩

end TornadoRelayer.Rpc
