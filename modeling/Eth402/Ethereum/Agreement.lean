/-
Agreement of the providers, however many there are and in whatever order they answer: a value is returned only if every
one of them returned a value and these reconcile, an error of the chain only if every one of them returned it, and a
simulation is reported as reverted only if it reverted for all of them. Next to `readClientAgreement` of the settlement
client stands `readAgreement` of the verification client (internal/ethereum/verification.go).
-/
import Eth402.Ethereum.Rpc

namespace Eth402.Ethereum

open Lib Settlement Verification

variable {n : Nat} {T : Type}

/-! ## The verification client -/

/-- The error of a read of the verification client. -/
inductive AgreementError
  | failed (e : Err)
  | disagreement (detail : String)
  deriving DecidableEq, Repr

/-- The comparison of the values with the first. -/
def agreeing (equal : T → T → Bool) (first : T) (rest : List T) : Except AgreementError T :=
  match rest.findIdx? fun value => !equal first value with
  | some index => .error (.disagreement ("provider 1 and provider " ++ toString (index + 2)))
  | none => .ok first

/-- `readAgreement`: every provider must answer and agree. The error of the context, if it has ended by then, is
reported in place of those of the providers. -/
def readAgreement (arrivals : Arrivals n (Except Err T) Err) (zero : T) (equal : T → T → Bool) (ctxErr : Option Err) :
    Except AgreementError T :=
  if n = 0 then .error (.failed (.text "no RPC clients configured"))
  else match arrivals.collect (.ok zero) with
  | .error e => .error (.failed e)
  | .ok outcomes =>
    let values := outcomes.filterMap Except.toOption
    if values.length ≠ 0 ∧ values.length ≠ outcomes.length then
      .error (.disagreement "providers returned divergent success and error outcomes")
    else match values with
    | [] => .error (.failed (ctxErr.getD (.text "ethereum RPC providers unavailable")))
    | first :: rest => agreeing equal first rest

theorem agreeing_ok {equal : T → T → Bool} {first value : T} {rest : List T}
    (h : agreeing equal first rest = .ok value) :
    value = first ∧ ∀ v ∈ rest, equal first v = true := by
  unfold agreeing at h
  split at h
  · cases h
  · rename_i hnone
    cases h
    refine ⟨rfl, fun v hv => ?_⟩
    simpa using List.findIdx?_eq_none_iff.1 hnone v hv

/-! ## Every provider -/

theorem no_error_of_length {ε α : Type} {outcomes : List (Except ε α)}
    (h : (outcomes.filterMap Except.toOption).length = outcomes.length) (e : ε) : Except.error e ∉ outcomes := by
  intro he
  have hall := (List.filterMap_length_eq_length.1 h) _ he
  cases hall

theorem values_of_ofFn {ε α : Type} {result : Fin n → Except ε α} {values : List α}
    (h : List.ofFn result = values.map Except.ok) :
    ∃ value : Fin n → α, (∀ i, result i = .ok (value i)) ∧ values = List.ofFn value := by
  have heach : ∀ i, ∃ v, result i = .ok v := by
    intro i
    have hmem : result i ∈ values.map Except.ok := h ▸ List.mem_ofFn.2 ⟨i, rfl⟩
    obtain ⟨v, -, hv⟩ := List.mem_map.1 hmem
    exact ⟨v, hv.symm⟩
  choose value hvalue using heach
  refine ⟨value, hvalue, ?_⟩
  have hmap : (values.map Except.ok : List (Except ε α)) = (List.ofFn value).map Except.ok := by
    rw [← h, List.map_ofFn]
    exact congrArg List.ofFn (funext hvalue)
  exact List.map_injective_iff.2 (fun _ _ hab => Except.ok.inj hab) hmap

theorem readAgreement_ok {arrivals : Arrivals n (Except Err T) Err} {zero value : T} {equal : T → T → Bool}
    {ctxErr : Option Err} (h : readAgreement arrivals zero equal ctxErr = .ok value) :
    ∃ values : Fin n → T, (∀ i, arrivals.result i = .ok (values i)) ∧
      ∃ first : Fin n, first.val = 0 ∧ value = values first ∧ ∀ i, i ≠ first → equal value (values i) = true := by
  unfold readAgreement at h
  split at h
  · cases h
  rename_i hn
  split at h
  · cases h
  rename_i outcomes hcollect
  simp only at h
  split at h
  · cases h
  rename_i hlength
  split at h
  · cases h
  rename_i first rest hvalues
  rw [hvalues] at hlength
  -- one value is there, so all of them are
  have hcount : (outcomes.filterMap Except.toOption).length = outcomes.length := by
    rw [hvalues]
    simpa using hlength
  have hall := eq_map_ok (no_error_of_length hcount)
  rw [Arrivals.collect_ok hcollect] at hall
  obtain ⟨values, hresult, hlist⟩ := values_of_ofFn hall
  rw [← Arrivals.collect_ok hcollect, hvalues] at hlist
  obtain ⟨rfl, hequal⟩ := agreeing_ok h
  obtain ⟨m, rfl⟩ := Nat.exists_eq_succ_of_ne_zero hn
  rw [List.ofFn_succ, List.cons.injEq] at hlist
  obtain ⟨rfl, hrest⟩ := hlist
  refine ⟨values, hresult, 0, rfl, rfl, fun i hi => ?_⟩
  obtain ⟨j, rfl⟩ := Fin.exists_succ_eq.2 hi
  exact hequal _ (hrest ▸ List.mem_ofFn.2 ⟨j, rfl⟩)

/-- What `Call` makes of the answers of the providers. -/
def simulation (w : Wire) (read : Except Err (List Outcome)) : Except SimulationError Unit :=
  match readClientAgreement "eth_call" (decodeHexData w) exactComparable read with
  | .ok _ => .ok ()
  | .error (.rpc context e) =>
    if e.reverted w then .error (.reverted e.message) else .error (.unavailable (.rpc context e))
  | .error e => .error (.unavailable e)

theorem call_eq (c : Client) (w : Wire) (providers : Providers c) (source target : String) (data : Bytes) :
    c.call w providers source target data = simulation w (c.readProviders w providers
      (callRequest source target data)) :=
  rfl

variable {decode : Raw → Except Err T}

theorem map_of_decoded {raws : List Raw} {values : List T}
    (h : List.Forall₂ (fun raw value => decode raw = .ok value) raws values) :
    raws.map decode = values.map Except.ok := by
  induction h with
  | nil => rfl
  | cons hd _ ih => rw [List.map_cons, List.map_cons, hd, ih]

variable {arrivals : Arrivals n Outcome Err}

theorem readClientAgreement_values {method : String} {reconcile : List T → Option T} {value : T}
    (h : readClientAgreement method decode reconcile (arrivals.collect (.ok "")) = .ok value) :
    ∃ (raws : Fin n → Raw) (values : Fin n → T), (∀ i, arrivals.result i = .ok (raws i) ∧
      decode (raws i) = .ok (values i)) ∧
      reconcile (List.ofFn values) = some value := by
  obtain ⟨outcomes, hcollect, ⟨raws, values, hraws, hrec, hall⟩⟩ := readClientAgreement_ok h
  rw [Arrivals.collect_ok hcollect] at hraws
  obtain ⟨raw, hresult, rfl⟩ := values_of_ofFn hraws
  have hdecoded : List.ofFn (fun i => decode (raw i)) = values.map Except.ok := by
    rw [← map_of_decoded hall, List.map_ofFn]
    rfl
  obtain ⟨value', hvalue, rfl⟩ := values_of_ofFn hdecoded
  exact ⟨raw, value', fun i => ⟨hresult i, hvalue i⟩, hrec⟩

theorem readClientAgreement_all {method context : String} {reconcile : List T → Option T} {e : RPCError}
    (h : readClientAgreement method decode reconcile (arrivals.collect (.ok "")) = .error (.rpc context e))
    (i : Fin n) :
    arrivals.result i = .error (.rpc e) := by
  obtain ⟨outcomes, hcollect, hall⟩ := readClientAgreement_rpc h
  exact hall _ (Arrivals.collect_ok hcollect ▸ List.mem_ofFn.2 ⟨i, rfl⟩)

theorem simulation_reverted {w : Wire} {message : String}
    (h : simulation w (arrivals.collect (.ok "")) = .error (.reverted message)) :
    ∃ e : RPCError, e.message = message ∧ e.reverted w = true ∧ ∀ i, arrivals.result i = .error (.rpc e) := by
  unfold simulation at h
  split at h
  · cases h
  · rename_i context e he
    split at h
    · cases h
      exact ⟨e, rfl, ‹_›, readClientAgreement_all he⟩
    · cases h
  · cases h

/-- For every number of providers, whatever each of them returned and in whatever order: `readClientAgreement` and
`readAgreement` return a value only if every provider returned one and they reconcile, `readClientAgreement` returns an
error of the chain only if every provider returned that one, and `Call` reports a revert only if every provider returned
that revert. -/
theorem agreement_is_unanimous (n : Nat) :
    (∀ (T : Type) (arrivals : Arrivals n Outcome Err) (method : String) (decode : Raw → Except Err T)
      (reconcile : List T → Option T) (value : T),
      readClientAgreement method decode reconcile (arrivals.collect (.ok "")) = .ok value →
        ∃ (raws : Fin n → Raw) (values : Fin n → T), (∀ i, arrivals.result i = .ok (raws i) ∧
          decode (raws i) = .ok (values i)) ∧
          reconcile (List.ofFn values) = some value) ∧
    (∀ (T : Type) (arrivals : Arrivals n (Except Err T) Err) (zero : T) (equal : T → T → Bool) (ctxErr : Option Err)
      (value : T), readAgreement arrivals zero equal ctxErr = .ok value →
        ∃ values : Fin n → T, (∀ i, arrivals.result i = .ok (values i)) ∧
          ∃ first : Fin n, first.val = 0 ∧ value = values first ∧ ∀ i, i ≠ first → equal value (values i) = true) ∧
    (∀ (T : Type) (arrivals : Arrivals n Outcome Err) (method context : String) (decode : Raw → Except Err T)
      (reconcile : List T → Option T) (e : RPCError),
      readClientAgreement method decode reconcile (arrivals.collect (.ok "")) = .error (.rpc context e) →
        ∀ i, arrivals.result i = .error (.rpc e)) ∧
    (∀ (arrivals : Arrivals n Outcome Err) (w : Wire) (message : String),
      simulation w (arrivals.collect (.ok "")) = .error (.reverted message) →
        ∃ e : RPCError, e.message = message ∧ e.reverted w = true ∧ ∀ i, arrivals.result i = .error (.rpc e)) ∧
    (∀ (c : Client) (w : Wire) (providers : Providers c) (source target message : String) (data : Bytes),
      c.call w providers source target data = .error (.reverted message) →
        ∃ e : RPCError, e.message = message ∧ e.reverted w = true ∧
          ∀ i, callProvider w c.retries ((providers (callRequest source target data)).result i) = .error (.rpc e)) := by
  refine ⟨fun T arrivals method decode reconcile value => readClientAgreement_values,
    fun T arrivals zero equal ctxErr value => readAgreement_ok,
    fun T arrivals method context decode reconcile e => readClientAgreement_all,
    fun arrivals w message => simulation_reverted, fun c w providers source target message data h => ?_⟩
  rw [call_eq] at h
  exact simulation_reverted h

/-- Two providers with one answer, of which the second arrives first. -/
def twoAnswers : Arrivals 2 Outcome Err := ⟨fun _ => .ok "0x1", [1, 0], by decide, none⟩

theorem agreement_of_two :
    readClientAgreement "eth_chainId" .ok exactComparable (twoAnswers.collect (.ok "")) = .ok "0x1" ∧
      ∃ raws values : Fin 2 → Raw, (∀ i, twoAnswers.result i = .ok (raws i) ∧
        (.ok (raws i) : Except Err Raw) = .ok (values i)) ∧ exactComparable (List.ofFn values) = some "0x1" := by
  have hread : readClientAgreement "eth_chainId" .ok exactComparable (twoAnswers.collect (.ok "")) = .ok "0x1" := by
    decide
  exact ⟨hread, (agreement_is_unanimous 2).1 Raw twoAnswers "eth_chainId" .ok exactComparable "0x1" hread⟩

end Eth402.Ethereum
