/-
The JSON-RPC client of the settlement path (internal/ethereum/rpc.go). A read goes to every configured provider at once,
each under its own retry budget, and counts only when all of them answered and their answers reconcile; an error of the
chain itself (a reverted call) counts only when all of them returned the same one.

`json.Unmarshal` and `strings.ToLower` are those of the standard library (`Wire`); what comes back over the network is
whatever it is (`Exchange`). Attempts are not counted for metrics here.
-/
import Eth402.Lib.Gather
import Eth402.Settlement.Calls

namespace Eth402.Ethereum

open Lib Settlement Verification

/-! ## One attempt -/

/-- `RPCError`: a JSON-RPC error object. -/
structure RPCError where
  code : Int
  message : String
  deriving DecidableEq, Repr

/-- A JSON text as it came over the wire. -/
abbrev Raw := String

structure RpcResponse where
  id : Raw
  result : Raw
  error : Option RPCError

structure RpcReceipt where
  transactionHash : String
  status : String
  blockNumber : String
  blockHash : String
  gasUsed : String
  effectiveGasPrice : String

structure RpcBlock where
  hash : String
  number : String
  baseFee : String

/-- The standard library: lower case, and decoding into each of the client's types. -/
structure Wire where
  toLower : String → String
  text : Raw → Option String
  number : Raw → Option Nat
  response : Raw → Except Err RpcResponse
  receipt : Raw → Except Err RpcReceipt
  block : Raw → Except Err RpcBlock

/-- `Reverted`: only an explicit revert counts. -/
def RPCError.reverted (w : Wire) (e : RPCError) : Bool :=
  e.code = 3 ∨ chars "execution reverted" <:+: chars (w.toLower e.message)

/-- The error of an attempt: one of the chain, or one of reaching it. -/
inductive CallError
  | rpc (e : RPCError)
  | failed (e : Err)
  deriving DecidableEq, Repr

/-- Why no response came. -/
inductive Transport
  | ended (e : Err)
  | timedOut
  | broken

/-- What one HTTP exchange comes to. -/
inductive Exchange
  | invalidEndpoint
  | transport (t : Transport)
  | unread
  | unclosed
  | answered (status : Nat) (body : Raw)

/-- `sanitizeRPCTransportError`: nothing of the endpoint's address is kept. -/
def sanitizeRPCTransportError : Transport → Err
  | .ended e => e
  | .timedOut => .text "RPC request timed out"
  | .broken => .text "RPC transport failed"

/-- `call`: the response must answer this request. -/
def call (w : Wire) (requestId : Nat) : Exchange → Except CallError Raw
  | .invalidEndpoint => .error (.failed (.text "RPC request endpoint is invalid"))
  | .transport t => .error (.failed (sanitizeRPCTransportError t))
  | .unread => .error (.failed (.text "RPC response read failed"))
  | .unclosed => .error (.failed (.text "RPC response close failed"))
  | .answered status body =>
    if status ≠ 200 then .error (.failed (.text ("RPC HTTP status " ++ toString status)))
    else match w.response body with
    | .error e => .error (.failed e)
    | .ok decoded =>
      if w.number decoded.id ≠ some requestId then
        .error (.failed (.text
          ("RPC response id " ++ decoded.id ++ " does not match request id " ++ toString requestId)))
      else match decoded.error with
      | some e => .error (.rpc e)
      | none => if decoded.result = "" then .error (.failed (.text "RPC result is missing")) else .ok decoded.result

/-- One attempt, and whether the context had ended after it. -/
structure Attempt where
  requestId : Nat
  exchange : Exchange
  ended : Bool

def Attempt.result (w : Wire) (a : Attempt) : Except CallError Raw := call w a.requestId a.exchange

/-- The attempts from number `i` on, of which `left` are retries. -/
def attemptFrom (w : Wire) (attempts : Nat → Attempt) : Nat → Nat → Except CallError Raw
  | left, i =>
    match (attempts i).result w with
    | .ok raw => .ok raw
    | .error e =>
      if (attempts i).ended then .error e
      else match left with
      | 0 => .error e
      | left + 1 => attemptFrom w attempts left (i + 1)

/-- `callProvider`: the configured retry budget, applied to one provider. -/
def callProvider (w : Wire) (retries : Nat) (attempts : Nat → Attempt) : Except CallError Raw :=
  attemptFrom w attempts retries 0

/-- What a provider answers to a read it answered to one of the attempts. -/
theorem callProvider_attempt (w : Wire) (retries : Nat) (attempts : Nat → Attempt) :
    ∃ k, callProvider w retries attempts = (attempts k).result w := by
  have hfrom : ∀ left i, ∃ k, attemptFrom w attempts left i = (attempts k).result w := by
    intro left
    induction left with
    | zero =>
      intro i
      refine ⟨i, ?_⟩
      unfold attemptFrom
      cases hr : (attempts i).result w with
      | ok raw => rfl
      | error e => simp
    | succ left ih =>
      intro i
      unfold attemptFrom
      cases hr : (attempts i).result w with
      | ok raw => exact ⟨i, hr.symm⟩
      | error e =>
        simp only
        split
        · exact ⟨i, hr.symm⟩
        · exact ih (i + 1)
  exact hfrom retries 0

/-! ## Agreement -/

structure Client where
  url : String
  fallback : String
  retries : Nat

/-- `providerURLs`. -/
def Client.providerURLs (c : Client) : List String :=
  if c.fallback ≠ "" ∧ c.fallback ≠ c.url then [c.url, c.fallback] else [c.url]

/-- A parameter of a request: a text, a truth value, or an object of texts. -/
inductive Param
  | text (s : String)
  | flag (b : Bool)
  | fields (fs : List (String × String))
  deriving DecidableEq, Repr

structure RpcRequest where
  method : String
  params : List Param
  deriving DecidableEq, Repr

/-- What the providers do on each request: the attempts of each one, and the order their answers arrive in. -/
abbrev Providers (c : Client) := RpcRequest → Arrivals c.providerURLs.length (Nat → Attempt) Err

abbrev Outcome := Except CallError Raw

/-- `readProviders`: every provider is asked at once, under its own retry budget. -/
def Client.readProviders (c : Client) (w : Wire) (providers : Providers c) (request : RpcRequest) :
    Except Err (List Outcome) :=
  let arrivals := providers request
  Arrivals.collect ⟨fun i => callProvider w c.retries (arrivals.result i), arrivals.order, arrivals.complete,
    arrivals.stop⟩
    (.ok "")

/-- The error of a read. -/
inductive ReadError
  | rpc (context : String) (e : RPCError)
  | disagreement (method detail : String)
  | failed (e : Err)
  deriving DecidableEq, Repr

/-- The error of a provider under a context, with `%w`. -/
def CallError.wrap (context : String) : CallError → ReadError
  | .rpc e => .rpc context e
  | .failed e => .failed (.wrap context e)

/-- The first outcome that is an error `p` selects, with its index. -/
def firstError (p : CallError → Bool) : Nat → List Outcome → Option (Nat × CallError)
  | _, [] => none
  | i, .ok _ :: rest => firstError p (i + 1) rest
  | i, .error e :: rest => if p e then some (i, e) else firstError p (i + 1) rest

def CallError.isRPC : CallError → Bool
  | .rpc _ => true
  | .failed _ => false

/-- `sameRPCError`. -/
def sameRPCError (left : CallError) : Outcome → Bool
  | .error right => match left, right with
    | .rpc l, .rpc r => l.code = r.code ∧ l.message = r.message
    | _, _ => false
  | .ok _ => false

variable {method : String} {e : RPCError}

section Agreement

variable {T : Type}

/-- The values of the providers from index `i` on. -/
def decodeFrom (method : String) (decode : Raw → Except Err T) : Nat → List Raw → Except ReadError (List T)
  | _, [] => .ok []
  | i, raw :: rest =>
    match decode raw with
    | .error e => .error (.failed (.wrap ("RPC read " ++ method ++ " provider " ++ toString (i + 1) ++
        " returned invalid data") e))
    | .ok value => do
      let values ← decodeFrom method decode (i + 1) rest
      pure (value :: values)

/-- The part of `readClientAgreement` for outcomes of which one, the first of index `index`, is the error `e`. -/
def disagree (method : String) (outcomes : List Outcome) (index : Nat) (e : CallError) : ReadError :=
  if outcomes.any fun o => o matches .ok _ then
    match e with
    | .rpc _ => .disagreement method
        ("provider " ++ toString (index + 1) ++ " returned an RPC error while another returned a value")
    | .failed cause => .failed (.wrap ("RPC read " ++ method ++ " provider " ++ toString (index + 1) ++ " failed")
      cause)
  else
    -- a provider that was not reached outweighs the errors of the others
    match firstError (fun e => !e.isRPC) 0 outcomes with
    | some (i, cause) => cause.wrap ("RPC read " ++ method ++ " provider " ++ toString (i + 1) ++ " failed")
    | none =>
      if outcomes.all (sameRPCError e) then e.wrap ("RPC read " ++ method ++ " failed")
      else .disagreement method "providers returned different RPC errors"

/-- `readClientAgreement`, from what `readProviders` returned. -/
def readClientAgreement (method : String) (decode : Raw → Except Err T) (reconcile : List T → Option T) :
    Except Err (List Outcome) → Except ReadError T
  | .error e => .error (.failed (.wrap ("RPC read " ++ method ++ " failed") e))
  | .ok [.error e] => .error (e.wrap ("RPC read " ++ method ++ " failed"))
  | .ok outcomes =>
    match firstError (fun _ => true) 0 outcomes with
    | some (index, e) => .error (disagree method outcomes index e)
    | none => do
      let values ← decodeFrom method decode 0 (outcomes.filterMap Except.toOption)
      match reconcile values with
      | some value => .ok value
      | none => .error (.disagreement method "providers returned different values")

/-- `exactComparable`, and the comparison of receipts: all values are the first. -/
def exactComparable [DecidableEq T] : List T → Option T
  | [] => none
  | first :: rest => if ∀ value ∈ rest, value = first then some first else none

theorem firstError_none {p : CallError → Bool} {outcomes : List Outcome} {i : Nat}
    (h : firstError p i outcomes = none) :
    ∀ e, .error e ∈ outcomes → p e = false := by
  induction outcomes generalizing i with
  | nil =>
    intro e he
    cases he
  | cons o rest ih =>
    intro e he
    cases o with
    | ok raw =>
      rcases List.mem_cons.1 he with he | he
      · cases he
      · exact ih h e he
    | error e' =>
      unfold firstError at h
      split at h
      · cases h
      · rcases List.mem_cons.1 he with he | he
        · cases he
          exact Bool.eq_false_iff.2 ‹_›
        · exact ih h e he

theorem firstError_some {p : CallError → Bool} {outcomes : List Outcome} {i j : Nat} {e : CallError}
    (h : firstError p i outcomes = some (j, e)) : .error e ∈ outcomes ∧ p e = true := by
  induction outcomes generalizing i with
  | nil => cases h
  | cons o rest ih =>
    cases o with
    | ok raw =>
      obtain ⟨hmem, hp⟩ := ih h
      exact ⟨List.mem_cons_of_mem _ hmem, hp⟩
    | error e' =>
      unfold firstError at h
      split at h
      · cases h
        exact ⟨List.mem_cons_self .., ‹_›⟩
      · obtain ⟨hmem, hp⟩ := ih h
        exact ⟨List.mem_cons_of_mem _ hmem, hp⟩

theorem decodeFrom_ok {decode : Raw → Except Err T} {i : Nat} {raws : List Raw} {values : List T}
    (h : decodeFrom method decode i raws = .ok values) :
    List.Forall₂ (fun raw value => decode raw = .ok value) raws values := by
  induction raws generalizing i values with
  | nil =>
    cases h
    exact .nil
  | cons raw rest ih =>
    unfold decodeFrom at h
    split at h
    · cases h
    · rename_i value hv
      obtain ⟨vs, hvs, h⟩ := except_bind_ok h
      cases h
      exact .cons hv (ih hvs)

theorem decodeFrom_error {decode : Raw → Except Err T} {i : Nat} {raws : List Raw} {r : ReadError}
    (h : decodeFrom method decode i raws = .error r) : ∃ e, r = .failed e := by
  induction raws generalizing i with
  | nil => cases h
  | cons raw rest ih =>
    unfold decodeFrom at h
    split at h
    · cases h
      exact ⟨_, rfl⟩
    · cases hrest : decodeFrom method decode (i + 1) rest with
      | error r' =>
        rw [hrest] at h
        cases h
        exact ih hrest
      | ok values =>
        rw [hrest] at h
        cases h

theorem eq_map_ok {ε α : Type} {outcomes : List (Except ε α)} (h : ∀ e, Except.error e ∉ outcomes) :
    outcomes = (outcomes.filterMap Except.toOption).map Except.ok := by
  induction outcomes with
  | nil => rfl
  | cons o rest ih =>
    cases o with
    | ok raw =>
      have htail := ih fun e he => h e (List.mem_cons_of_mem _ he)
      rw [List.filterMap_cons_some (rfl : Except.toOption (Except.ok raw : Except ε α) = some raw), List.map_cons,
        ← htail]
    | error e => exact absurd (List.mem_cons_self ..) (h e)

/-- Every provider answered, with values that reconcile. -/
structure Agreed (decode : Raw → Except Err T) (reconcile : List T → Option T) (outcomes : List Outcome) (value : T) :
    Prop where
  decoded : ∃ raws values, outcomes = raws.map Except.ok ∧ reconcile values = some value ∧
    List.Forall₂ (fun raw value => decode raw = .ok value) raws values

theorem readClientAgreement_ok {decode : Raw → Except Err T} {reconcile : List T → Option T}
    {read : Except Err (List Outcome)} {value : T} (h : readClientAgreement method decode reconcile read = .ok value) :
    ∃ outcomes, read = .ok outcomes ∧ Agreed decode reconcile outcomes value := by
  unfold readClientAgreement at h
  split at h
  · cases h
  · cases h
  · rename_i outcomes _
    split at h
    · cases h
    · rename_i hnone
      refine ⟨outcomes, rfl, ?_⟩
      obtain ⟨values, hvalues, h⟩ := except_bind_ok h
      split at h
      · rename_i v hv
        cases h
        exact ⟨⟨_, values, eq_map_ok fun e he => Bool.noConfusion (firstError_none hnone e he), hv,
          decodeFrom_ok hvalues⟩⟩
      · cases h

theorem CallError.wrap_rpc {context context' : String} {c : CallError} (h : c.wrap context = .rpc context' e) :
    c = .rpc e := by
  cases c with
  | rpc e' =>
    cases h
    rfl
  | failed e' => cases h

theorem sameRPCError_eq {o : Outcome} (h : sameRPCError (.rpc e) o = true) : o = .error (.rpc e) := by
  unfold sameRPCError at h
  split at h
  · split at h
    · rename_i l r heq
      cases heq
      obtain ⟨hcode, hmessage⟩ := of_decide_eq_true h
      cases e
      cases r
      cases hcode
      cases hmessage
      rfl
    · cases h
  · cases h

theorem readClientAgreement_rpc {context : String} {decode : Raw → Except Err T} {reconcile : List T → Option T}
    {read : Except Err (List Outcome)}
    (h : readClientAgreement method decode reconcile read = .error (.rpc context e)) :
    ∃ outcomes, read = .ok outcomes ∧ ∀ o ∈ outcomes, o = .error (.rpc e) := by
  unfold readClientAgreement at h
  split at h
  · cases h
  · rename_i c
    rw [CallError.wrap_rpc (Except.error.inj h)]
    exact ⟨_, rfl, by simp⟩
  · rename_i outcomes _
    refine ⟨outcomes, rfl, ?_⟩
    split at h
    · rename_i index c hfirst
      have hd : disagree method outcomes index c = .rpc context e := Except.error.inj h
      unfold disagree at hd
      split at hd
      · cases c <;> cases hd
      · split at hd
        · -- a provider that was not reached is not wrapped as an error of the chain
          rename_i i cause hcause
          rw [CallError.wrap_rpc hd] at hcause
          have := (firstError_some hcause).2
          simp [CallError.isRPC] at this
        · split at hd
          · rename_i hall
            obtain rfl := CallError.wrap_rpc hd
            intro o ho
            exact sameRPCError_eq (List.all_eq_true.1 hall o ho)
          · cases hd
    · cases hv : decodeFrom method decode 0 (outcomes.filterMap Except.toOption) with
      | error r =>
        rw [hv] at h
        cases h
        obtain ⟨e', he'⟩ := decodeFrom_error hv
        cases he'
      | ok values =>
        rw [hv] at h
        simp only [bind, Except.bind] at h
        split at h <;> cases h

theorem exactComparable_eq [DecidableEq T] {values : List T} {value : T} (h : exactComparable values = some value) :
    ∀ v ∈ values, v = value := by
  cases values with
  | nil => cases h
  | cons first rest =>
    obtain ⟨hall, rfl⟩ : (∀ v ∈ rest, v = first) ∧ first = value := by simpa [exactComparable] using h
    simpa using hall

end Agreement

/-! ## Decoding -/

/-- The value of hexadecimal digits, without a sign or a prefix. -/
def hexValue (cs : List Char) : Option Nat :=
  if cs = [] then none else cs.foldl (fun acc c => do pure ((← acc) * 16 + (← hexVal c))) (some 0)

def trim0x (s : String) : List Char := (chars s).drop (if hasPrefix "0x" s then 2 else 0)

/-- `parseHexUint`. -/
def parseHexUint (value : String) : Except Err Nat :=
  match (hexValue (trim0x value)).filter (· < 2 ^ 64) with
  | some n => .ok n
  | none => .error (.text ("invalid hexadecimal number " ++ value))

/-- `big.Int.SetString` in base 16: a sign is taken. -/
def setString16 : List Char → Option Int
  | '-' :: cs => (hexValue cs).map fun n => -(n : Int)
  | '+' :: cs => (hexValue cs).map fun n => (n : Int)
  | cs => (hexValue cs).map fun n => (n : Int)

/-- `normalizeHash`. -/
def normalizeHash (field value : String) : Except Err String :=
  if value.utf8ByteSize ≠ 66 ∨ ¬ hasPrefix "0x" value ∨ (hexDecode ((chars value).drop 2)).isNone then
    .error (.text (field ++ " " ++ value ++ " is not a 32-byte hex value"))
  else .ok (lower value)

/-- `decodeHexUintResult`. -/
def decodeHexUintResult (w : Wire) (raw : Raw) : Except Err Nat :=
  match w.text raw with
  | none | some "" => .error (.text "RPC result is empty")
  | some value => parseHexUint value

/-- `decodeReceipt`. -/
def decodeReceipt (w : Wire) (requestedHash : String) (result : Raw) : Except Err (Option Receipt) :=
  if result = "null" then .ok none
  else do
    let raw ← (w.receipt result).mapError (.wrap "decode receipt")
    let status ← (parseHexUint raw.status).mapError (.wrap ("receipt status " ++ raw.status))
    if status > 1 then .error (.text ("receipt status " ++ raw.status ++ " is neither 0 nor 1"))
    let returnedHash ← normalizeHash "receipt transaction hash" raw.transactionHash
    if returnedHash ≠ requestedHash then
      .error (.text ("receipt transaction hash " ++ returnedHash ++ " does not match requested hash " ++ requestedHash))
    let blockNumber ← (parseHexUint raw.blockNumber).mapError (.wrap ("receipt block number " ++ raw.blockNumber))
    let gasUsed ← (parseHexUint raw.gasUsed).mapError (.wrap ("receipt gas used " ++ raw.gasUsed))
    match (setString16 (trim0x raw.effectiveGasPrice)).filter (0 ≤ ·) with
    | none => .error (.text ("receipt effective gas price " ++ raw.effectiveGasPrice ++ " is not unsigned hex"))
    | some gasPrice =>
      let blockHash ← normalizeHash "receipt block hash" raw.blockHash
      pure (some ⟨blockNumber, blockHash, status, gasUsed, gasPrice⟩)

/-- The client's `Block`; settlement reads its hash and base fee. -/
structure ChainBlock where
  hash : String
  number : Nat
  baseFee : String
  deriving DecidableEq, Repr

def ChainBlock.block (b : ChainBlock) : Block := ⟨b.hash, b.baseFee⟩

/-- A block must be of the height that was asked for. -/
def heightMatches (blockNumber : Nat) : Option Nat → Except Err Unit
  | some number => if blockNumber = number then .ok () else
      .error (.text ("block number " ++ toString blockNumber ++ " does not match requested number " ++ toString number))
  | none => .ok ()

/-- `decodeBlock`. -/
def decodeBlock (w : Wire) (number : Option Nat) (tag : String) (result : Raw) : Except Err ChainBlock :=
  if result = "null" then .error (.text ("block " ++ tag ++ " does not exist"))
  else do
    let raw ← (w.block result).mapError (.wrap "decode block")
    let blockNumber ← (parseHexUint raw.number).mapError (.wrap ("block number " ++ raw.number))
    heightMatches blockNumber number
    let blockHash ← normalizeHash "block hash" raw.hash
    if raw.baseFee = "" then pure ⟨blockHash, blockNumber, "0"⟩
    else match (setString16 (trim0x raw.baseFee)).filter (0 ≤ ·) with
    | none => .error (.text ("base fee " ++ raw.baseFee ++ " is not unsigned hex"))
    | some fee => pure ⟨blockHash, blockNumber, toString fee⟩

/-- `decodeHexData`. -/
def decodeHexData (w : Wire) (result : Raw) : Except Err Bytes :=
  match w.text result with
  | none => .error (.text "RPC data result is not hexadecimal")
  | some value =>
    if ¬ hasPrefix "0x" value then .error (.text "RPC data result is not hexadecimal")
    else match hexDecode ((chars value).drop 2) with
    | some bytes => .ok bytes
    | none => .error (.text "RPC data result is not hexadecimal")

theorem normalizeHash_lower {field value x : String} (h : normalizeHash field value = .ok x) : lower x = x := by
  unfold normalizeHash at h
  split at h
  · cases h
  · cases h
    exact lower_lower value

theorem decodeReceipt_some {w : Wire} {requested : String} {raw : Raw} {receipt : Receipt}
    (h : decodeReceipt w requested raw = .ok (some receipt)) :
    receipt.status ≤ 1 ∧ lower receipt.blockHash = receipt.blockHash := by
  unfold decodeReceipt at h
  split at h
  · cases h
  obtain ⟨r, -, h⟩ := except_bind_ok h
  obtain ⟨status, -, h⟩ := except_bind_ok h
  by_cases hstatus : status > 1
  · simp only [hstatus, if_true] at h
    cases h
  simp only [hstatus, if_false] at h
  obtain ⟨returned, -, h⟩ := except_bind_ok h
  split at h
  · cases h
  obtain ⟨number, -, h⟩ := except_bind_ok h
  obtain ⟨gasUsed, -, h⟩ := except_bind_ok h
  split at h
  · cases h
  · obtain ⟨hash, hhash, h⟩ := except_bind_ok h
    cases h
    exact ⟨Nat.not_lt.1 hstatus, normalizeHash_lower hhash⟩

theorem decodeBlock_lower {w : Wire} {number : Option Nat} {tag : String} {raw : Raw} {block : ChainBlock}
    (h : decodeBlock w number tag raw = .ok block) : lower block.hash = block.hash := by
  unfold decodeBlock at h
  split at h
  · cases h
  obtain ⟨r, -, h⟩ := except_bind_ok h
  obtain ⟨blockNumber, -, h⟩ := except_bind_ok h
  obtain ⟨-, -, h⟩ := except_bind_ok h
  obtain ⟨hash, hhash, h⟩ := except_bind_ok h
  split at h
  · cases h
    exact normalizeHash_lower hhash
  · split at h
    · cases h
    · cases h
      exact normalizeHash_lower hhash

/-! ## The reads -/

/-- The only difference of providers that is tolerated. -/
def maxLatestBlockSkew : Nat := 2

/-- The lower of the heads, if they are close. -/
def lowestHead : List Nat → Option Nat
  | [] => none
  | first :: rest =>
    let lowest := rest.foldl min first
    if rest.foldl max first - lowest ≤ maxLatestBlockSkew then some lowest else none

def blockNumberRequest : RpcRequest := ⟨"eth_blockNumber", []⟩

def receiptRequest (txHash : String) : RpcRequest := ⟨"eth_getTransactionReceipt", [.text txHash]⟩

/-- The tag of a height: `latest`, or its shortest hexadecimal form. -/
def blockTag : Option Nat → String
  | none => "latest"
  | some n => "0x" ++ String.ofList (Nat.toDigits 16 n)

def blockRequest (number : Option Nat) : RpcRequest := ⟨"eth_getBlockByNumber", [.text (blockTag number), .flag false]⟩

def callRequest (source target : String) (data : Bytes) : RpcRequest :=
  ⟨"eth_call", [.fields [("from", source), ("to", target), ("data", "0x" ++ hexEncode data)], .text "latest"]⟩

/-- The error of a simulation: the call reverted, or nothing is known. -/
inductive SimulationError
  | reverted (message : String)
  | unavailable (e : ReadError)

namespace Client

variable (c : Client) (w : Wire) (providers : Providers c)

/-- A read of every provider, reconciled. -/
def read {T : Type} (request : RpcRequest) (decode : Raw → Except Err T) (reconcile : List T → Option T) :
    Except ReadError T :=
  readClientAgreement request.method decode reconcile (c.readProviders w providers request)

/-- `BlockNumber`: the lower head, so that finality is never advanced by the faster provider. -/
def blockNumber : Except ReadError Nat := c.read w providers blockNumberRequest (decodeHexUintResult w) lowestHead

/-- `TransactionReceipt`. -/
def transactionReceipt (txHash : String) : Except ReadError (Option Receipt) :=
  match normalizeHash "requested transaction hash" txHash with
  | .error e => .error (.failed e)
  | .ok requestedHash => c.read w providers (receiptRequest requestedHash) (decodeReceipt w requestedHash)
    exactComparable

/-- `BlockByNumber` at a fixed height, or at the tag `latest`. -/
def blockAt (number : Option Nat) : Except ReadError ChainBlock :=
  c.read w providers (blockRequest number) (decodeBlock w number (blockTag number)) exactComparable

/-- `BlockByNumber`: with several providers the latest block is the one at the agreed head. -/
def blockByNumber (number : Option Nat) : Except ReadError ChainBlock :=
  match number with
  | some n => c.blockAt w providers (some n)
  | none =>
    if c.providerURLs.length > 1 then
      match c.blockNumber w providers with
      | .error e => .error e
      | .ok head => c.blockAt w providers (some head)
    else c.blockAt w providers none

/-- `Call`: a simulation of exactly the calldata that would be sent. -/
def call (source target : String) (data : Bytes) : Except SimulationError Unit :=
  match c.read w providers (callRequest source target data) (decodeHexData w) exactComparable with
  | .ok _ => .ok ()
  | .error (.rpc context e) =>
    if e.reverted w then .error (.reverted e.message) else .error (.unavailable (.rpc context e))
  | .error e => .error (.unavailable e)

end Client

/-! ## What a read says about each provider -/

variable {request : RpcRequest}

section Providers

variable {c : Client} {w : Wire} {providers : Providers c} {T : Type}

/-- The provider of index `i` itself returned the result in one of the attempts. -/
def Returned (w : Wire) (providers : Providers c) (i : Fin c.providerURLs.length) (request : RpcRequest) (raw : Raw) :
    Prop :=
  ∃ k, ((providers request).result i k).result w = .ok raw

/-- The provider itself returned the error of the chain. -/
def ReturnedError (w : Wire) (providers : Providers c) (i : Fin c.providerURLs.length) (request : RpcRequest)
    (e : RPCError) :
    Prop :=
  ∃ k, ((providers request).result i k).result w = .error (.rpc e)

theorem readProviders_ok {outcomes : List Outcome} (h : c.readProviders w providers request = .ok outcomes) :
    outcomes = List.ofFn fun i => callProvider w c.retries ((providers request).result i) := Arrivals.collect_ok h

theorem read_ok {decode : Raw → Except Err T} {reconcile : List T → Option T} {value : T}
    (h : c.read w providers request decode reconcile = .ok value) :
    ∃ values, reconcile values = some value ∧
      ∀ i, ∃ raw, ∃ v ∈ values, Returned w providers i request raw ∧ decode raw = .ok v := by
  obtain ⟨outcomes, hread, ⟨raws, values, hraws, hrec, hall⟩⟩ := readClientAgreement_ok h
  refine ⟨values, hrec, fun i => ?_⟩
  have hout := readProviders_ok hread
  have hmem : callProvider w c.retries ((providers request).result i) ∈ raws.map Except.ok := by
    rw [← hraws, hout]
    exact List.mem_ofFn.2 ⟨i, rfl⟩
  obtain ⟨raw, hraw, heq⟩ := List.mem_map.1 hmem
  obtain ⟨v, hv, hd⟩ := exists_of_forall₂ hall hraw
  obtain ⟨k, hk⟩ := callProvider_attempt w c.retries ((providers request).result i)
  exact ⟨raw, v, hv, ⟨k, hk.symm.trans heq.symm⟩, hd⟩

theorem read_rpc {decode : Raw → Except Err T} {reconcile : List T → Option T} {context : String}
    (h : c.read w providers request decode reconcile = .error (.rpc context e)) (i : Fin c.providerURLs.length) :
    ReturnedError w providers i request e := by
  obtain ⟨outcomes, hread, hall⟩ := readClientAgreement_rpc h
  have hmem : callProvider w c.retries ((providers request).result i) ∈ outcomes := by
    rw [readProviders_ok hread]
    exact List.mem_ofFn.2 ⟨i, rfl⟩
  obtain ⟨k, hk⟩ := callProvider_attempt w c.retries ((providers request).result i)
  exact ⟨k, hk.symm.trans (hall _ hmem)⟩

theorem read_exact [DecidableEq T] {decode : Raw → Except Err T} {value : T}
    (h : c.read w providers request decode exactComparable = .ok value) (i : Fin c.providerURLs.length) :
    ∃ raw, Returned w providers i request raw ∧ decode raw = .ok value := by
  obtain ⟨values, hrec, hall⟩ := read_ok h
  obtain ⟨raw, v, hv, hret, hd⟩ := hall i
  rw [exactComparable_eq hrec v hv] at hd
  exact ⟨raw, hret, hd⟩

theorem transactionReceipt_returned {txHash : String} {receipt : Receipt}
    (h : c.transactionReceipt w providers txHash = .ok (some receipt)) (i : Fin c.providerURLs.length) :
    ∃ requested raw, normalizeHash "requested transaction hash" txHash = .ok requested ∧
      Returned w providers i (receiptRequest requested) raw ∧ decodeReceipt w requested raw = .ok (some receipt) := by
  unfold Client.transactionReceipt at h
  split at h
  · cases h
  · obtain ⟨raw, hret, hd⟩ := read_exact h i
    exact ⟨_, raw, ‹_›, hret, hd⟩

theorem blockByNumber_returned {n : Nat} {block : ChainBlock} (h : c.blockByNumber w providers (some n) = .ok block)
    (i : Fin c.providerURLs.length) :
    ∃ raw, Returned w providers i (blockRequest (some n)) raw ∧
      decodeBlock w (some n) (blockTag (some n)) raw = .ok block :=
  read_exact h i

theorem blockNumber_returned {head : Nat} (h : c.blockNumber w providers = .ok head) (i : Fin c.providerURLs.length) :
    ∃ raw v, Returned w providers i blockNumberRequest raw ∧ decodeHexUintResult w raw = .ok v ∧ head ≤ v := by
  obtain ⟨values, hrec, hall⟩ := read_ok h
  obtain ⟨raw, v, hv, hret, hd⟩ := hall i
  refine ⟨raw, v, hret, hd, ?_⟩
  cases values with
  | nil => cases hrec
  | cons first rest =>
    simp only [lowestHead, Option.ite_none_right_eq_some, Option.some.injEq] at hrec
    obtain ⟨-, rfl⟩ := hrec
    -- the minimum of a list is below its members
    have hmin : ∀ (rest : List Nat) (first : Nat), ∀ x ∈ first :: rest, rest.foldl min first ≤ x := by
      intro rest
      induction rest with
      | nil => simp
      | cons y rest ih =>
        intro first x hx
        have hstart := ih (min first y) (min first y) (List.mem_cons_self ..)
        rw [List.foldl_cons]
        simp only [List.mem_cons] at hx
        rcases hx with rfl | rfl | hx
        · omega
        · omega
        · exact ih (min first y) x (List.mem_cons_of_mem _ hx)
    exact hmin rest first v hv

theorem call_returned {source target message : String} {data : Bytes}
    (h : c.call w providers source target data = .error (.reverted message)) (i : Fin c.providerURLs.length) :
    ∃ e, ReturnedError w providers i (callRequest source target data) e ∧ e.reverted w = true := by
  unfold Client.call at h
  split at h
  · cases h
  · rename_i context e he
    split at h
    · exact ⟨e, read_rpc he i, ‹_›⟩
    · cases h
  · cases h

end Providers

end Eth402.Ethereum
