/-
What becomes of an on-chain authorization that was accepted. The uniqueness rule of the payment table compares
texts, so it holds one row per authorization exactly as far as the parser spells it in one way; a payment is given an
intent once; and the stored authorization can be encoded again exactly as far as its addresses fill their columns.
-/
import Eth402.Store.Nonces
import Eth402.Store.Rebuild
import Eth402.System.Invariant
import Eth402.Verification.Canonical

namespace Eth402.System

open Lib Store Settlement Verification

variable {lib : Libraries} {cfg : Settlement.Config}

/-! ## Spelling -/

/-- The request denotes the authorization of the payer address and the nonce. -/
def Denotes (lib : Libraries) (request : Request) (payer nonce : Bytes) : Prop :=
  ∃ e, lib.payloadFromMap request.paymentPayload.payload = some e ∧
    lib.hexToAddress e.authorization.source = payer ∧ trimmedBytes e.authorization.nonce = some nonce

/-- The request spells its payer with a prefix. -/
def prefixesPayer (lib : Libraries) (request : Request) : Bool :=
  (lib.payloadFromMap request.paymentPayload.payload).any fun e => has0xPrefix e.authorization.source

/-- The spelling of an accepted request's authorization. -/
theorem spelling_of_parse (geth : GethLaws lib) {request : Request} {p : ParsedPayment} {payer nonce : Bytes}
    (h : parseRequest lib request = .ok p) (hd : Denotes lib request payer nonce) :
    p.asset = lower mainnetUSDC ∧ payer.length = 20 ∧ p.payer = hexText0x (prefixesPayer lib request) payer ∧
      p.nonce = hexText0x true nonce := by
  obtain ⟨e, value, after, before, hacc⟩ := accepted_of_parse h
  obtain ⟨e', he', hpayer, hnonce⟩ := hd
  rw [hacc.payload] at he'
  cases he'
  obtain ⟨hasset, hsource, -, -, hn, -⟩ := paymentOf_ok hacc.payment
  obtain ⟨bs, hbs, hlen⟩ := (geth.isHexAddress _).1 hacc.source
  have hprefix : prefixesPayer lib request = has0xPrefix e.authorization.source := by
    unfold prefixesPayer
    rw [hacc.payload]; rfl
  rw [geth.hexToAddress _ bs hbs hlen] at hpayer
  subst hpayer
  obtain ⟨ns, hns, -, hlower⟩ := lower_of_fixedHex hacc.nonce
  rw [hnonce] at hns
  cases hns
  refine ⟨hasset.trans hacc.asset, hlen, ?_, hn.trans hlower⟩
  rw [hsource, hprefix]
  exact lower_of_digits hbs

/-! ## Rows -/

/-- The row holds the authorization of the parsed payment. -/
def Holds (p : ParsedPayment) (q : Payment) : Prop :=
  q.network = mainnetNetwork ∧ q.asset = padTo 42 p.asset ∧ q.payerAddress = some (padTo 42 p.payer) ∧
    q.authorizationNonce = some (padTo 66 p.nonce)

instance (p : ParsedPayment) (q : Payment) : Decidable (Holds p q) := inferInstanceAs (Decidable (_ ∧ _))

theorem holds_unique {db : DB} {p p' : ParsedPayment} {x y : Payment} (hasset : p.asset = p'.asset)
    (hpayer : p.payer = p'.payer) (hnonce : p.nonce = p'.nonce) (hx : x ∈ db.tables.payments)
    (hy : y ∈ db.tables.payments) (hhx : Holds p x) (hhy : Holds p' y) : x = y := by
  have key : ∀ {r : ParsedPayment} {q : Payment}, Holds r q →
      q.authorizationKey = some (mainnetNetwork, padTo 42 r.asset, padTo 42 r.payer, padTo 66 r.nonce) := by
    rintro r q ⟨hn, ha, hp, hno⟩
    unfold Payment.authorizationKey
    rw [hp, hno, hn, ha]
  have hkey := key hhy
  rw [← hasset, ← hpayer, ← hnonce] at hkey
  exact eq_of_partialKey db.wf.authorizations hx hy (key hhx) hkey

/-! ## Intents -/

/-- The step commits a settlement intent of the payment: the call of admission is answered with a new intent, or
would be if its answer were not lost. -/
def CommitsIntent (before : Run lib cfg) (ch : Choice (facilitator lib cfg)) (p : Nat) : Prop :=
  ∃ (pid : Nat) (env : StepEnv) (e : Entry) (request : IntentRequest)
    (k : Resp (.store (.createSettlementIntent request)) → P Out) (intent : Intent),
    ch = .run pid env ∧ (∀ m, env.fault ≠ .failed m) ∧
      (reach lib cfg before).procs[pid]? = some ⟨e, some (.call (.store (.createSettlementIntent request)) k)⟩ ∧
      ((Op.createSettlementIntent request).run env.db (reach lib cfg before).shared.db).1 = .ok intent ∧
      intent.duplicate = false ∧ intent.paymentId = p

/-- The payment had no transaction before the step and has one after it. -/
theorem CommitsIntent.rows {before : Run lib cfg} {ch : Choice (facilitator lib cfg)} {p : Nat}
    (h : CommitsIntent before ch p) : rowsOf (reach lib cfg before).shared.db.tables p = [] ∧
      ∃ t, Stands (reach lib cfg (before ++ [ch])).shared.db (.row p t) := by
  obtain ⟨pid, env, e, request, k, intent, rfl, hfault, hproc, hans, hnew, rfl⟩ := h
  have hdb : (reach lib cfg (before ++ [.run pid env])).shared.db =
      ((createSettlementIntent env.db request).runInner (reach lib cfg before).shared.db).2 := by
    have hstep : (reach lib cfg (before ++ [.run pid env])).shared = (perform (reach lib cfg before).shared env
        (.store (.createSettlementIntent request))).2 := by
      rw [reach_append]
      exact step_run hproc env
    rw [hstep]
    exact runStore_commits hfault ..
  change ((createSettlementIntent env.db request).runInner (reach lib cfg before).shared.db).1 = .ok intent at hans
  rw [hdb]
  unfold Txn.runInner at hans ⊢
  split at hans
  · rename_i r db' hok
    simp only at hans
    subst hans
    obtain ⟨signer, -, ho⟩ := createSettlementIntent_outcome hok
    cases ho with
    | terminal | duplicate => cases hnew
    | committed q nonce hq ht ha hr hc =>
      obtain ⟨hmem, -⟩ := requested_some hq
      have hshape := (reach_inv before).shape q.id
      unfold Shape lifeOf at hshape
      rw [stateOf_eq_some hmem, (verified_of_not_refused hr).1] at hshape
      have hrow : intentRow env.db q.id signer nonce ∈ db'.tables.transactions := by
        rw [hc.transactions]
        exact List.mem_concat_self
      exact ⟨hshape, env.db.freshId, _, mem_rowsOf.2 ⟨_, hrow, rfl, rfl⟩, rfl⟩
  · cases hans

theorem intent_once {run before before' : Run lib cfg} {ch ch' : Choice (facilitator lib cfg)} {p : Nat}
    (hrun : before ++ [ch] <+: run) (hrun' : before' ++ [ch'] <+: run) (h : CommitsIntent before ch p)
    (h' : CommitsIntent before' ch' p) : before = before' := by
  -- whichever comes first leaves a row that the later one does not find
  have later : ∀ {b b' : Run lib cfg} {c c' : Choice (facilitator lib cfg)}, CommitsIntent b c p →
      CommitsIntent b' c' p → ¬ b ++ [c] <+: b' := by
    rintro b b' c c' hb hb' ⟨mid, rfl⟩
    obtain ⟨t, ht⟩ := hb.rows.2
    obtain ⟨x, hx, -⟩ := ht.later mid
    rw [hb'.rows.1] at hx
    cases hx
  rcases Nat.lt_trichotomy before.length before'.length with hlt | heq | hlt
  · refine absurd (List.prefix_of_prefix_length_le hrun ((List.prefix_append ..).trans hrun') ?_) (later h h')
    rw [List.length_append]
    exact hlt
  · exact (List.prefix_of_prefix_length_le ((List.prefix_append ..).trans hrun) ((List.prefix_append ..).trans hrun')
      (Nat.le_of_eq heq)).eq_of_length heq
  · refine absurd (List.prefix_of_prefix_length_le hrun' ((List.prefix_append ..).trans hrun) ?_) (later h' h)
    rw [List.length_append]
    exact hlt

/-! ## One payment per authorization -/

/-- Two accepted requests for one authorization give the same payer and nonce texts, hence at most one unredacted row
and one settlement intent, exactly when both spell the payer with a prefix or neither does. -/
theorem authorization_spelled_once (geth : GethLaws lib) {a b : Request} {pa pb : ParsedPayment} {payer nonce : Bytes}
    (ha : parseRequest lib a = .ok pa) (hb : parseRequest lib b = .ok pb) (hda : Denotes lib a payer nonce)
    (hdb : Denotes lib b payer nonce) :
    (pa.payer = pb.payer ∧ pa.nonce = pb.nonce ∧
      (∀ db : DB, ∀ x ∈ db.tables.payments, ∀ y ∈ db.tables.payments, Holds pa x → Holds pb y → x = y) ∧
      ∀ (cfg : Settlement.Config) (run before before' : Run lib cfg) (ch ch' : Choice (facilitator lib cfg)),
        before ++ [ch] <+: run → before' ++ [ch'] <+: run →
          ∀ x ∈ (reach lib cfg run).shared.db.tables.payments, ∀ y ∈ (reach lib cfg run).shared.db.tables.payments,
            Holds pa x → Holds pb y → CommitsIntent before ch x.id → CommitsIntent before' ch' y.id →
              before = before') ↔ prefixesPayer lib a = prefixesPayer lib b := by
  obtain ⟨hasset, hlen, hpayer, hnonce⟩ := spelling_of_parse geth ha hda
  obtain ⟨hasset', hlen', hpayer', hnonce'⟩ := spelling_of_parse geth hb hdb
  constructor
  · rintro ⟨h, -⟩
    rw [hpayer, hpayer'] at h
    exact hexText0x_inj rfl h
  · intro hsame
    have hp : pa.payer = pb.payer := by rw [hpayer, hpayer', hsame]
    have hn : pa.nonce = pb.nonce := by rw [hnonce, hnonce']
    have hrow : ∀ db : DB, ∀ x ∈ db.tables.payments, ∀ y ∈ db.tables.payments, Holds pa x → Holds pb y → x = y :=
      fun db x hx y hy => holds_unique (hasset.trans hasset'.symm) hp hn hx hy
    refine ⟨hp, hn, hrow, fun cfg run before before' ch ch' hrun hrun' x hx y hy hhx hhy hc hc' => ?_⟩
    obtain rfl := hrow _ x hx y hy hhx hhy
    exact intent_once hrun hrun' hc hc'

/-! ## A payer spelled in two ways -/

/-- The sample libraries with go-ethereum's address helpers; payments are told apart by the length of their texts. -/
def spelledLib : Libraries := { sampleLib with
  isHexAddress := fun s => (hexDecode (addressDigits s)).any (·.length = 20)
  hexToAddress := fun s => (hexDecode (addressDigits s)).getD []
  sha256 := fun bs => [UInt8.ofNat bs.length]
  packTransferWithAuthorization := fun a => .ok ((argumentWords a).flatten) }

theorem spelledLib_laws : GethLaws spelledLib where
  isHexAddress s := by
    simp only [spelledLib, Option.any_eq_true, decide_eq_true_eq]
  hexToAddress s bs h _ := by
    simp only [spelledLib, h, Option.getD_some]

theorem spelledLib_packs : PackLaws spelledLib [] := ⟨fun _ _ => rfl⟩

/-- A request of the sample authorization that spells the payer as given. -/
def requestFrom (payer : String) : Request where
  x402Version := 2
  paymentPayload := ⟨2, sampleRequirements, [("authorization", .obj [("from", .str payer),
    ("to", .str sampleMerchant), ("value", .str "7"), ("validAfter", .str "0"), ("validBefore", .str "1"),
    ("nonce", .str (hexText 64 'a'))]), ("signature", .str (hexText 128 'a' ++ "1b"))], []⟩
  paymentRequirements := sampleRequirements

def barePayer := String.ofList (List.replicate 40 '3')

/-- The steps that verify the request as the payment `id` and admit it. -/
def admitted (request : Request) (id : Nat) : List StoreStep :=
  match parseRequest spelledLib request with
  | .ok p => [.commit (calm id).db (.recordVerification ⟨p.identity, "verified", "", some p⟩ "used"),
      .commit (calm (id + 1)).db (.createSettlementIntent (intentRequest sampleConfig p 20))]
  | .error _ => []

/-- The database when the authorization was admitted under both spellings. -/
def sampleTwice : DB :=
  execute ([.setMerchants [⟨1, sampleMerchant, .active, 0⟩], .commit (calm 0).db (.seedSignerAccount sampleSigner 3)] ++
    admitted (requestFrom samplePayer) 10 ++ admitted (requestFrom barePayer) 20)

theorem denotes_requestFrom {payer : String} {bs : Bytes} (h : hexDecode (addressDigits payer) = some bs) :
    Denotes spelledLib (requestFrom payer) bs (List.replicate 32 170) := by
  refine ⟨_, rfl, ?_, ?_⟩
  · change (hexDecode (addressDigits payer)).getD [] = bs
    rw [h]; rfl
  · change trimmedBytes (hexText 64 'a') = _
    decide +kernel

/-- What `f` finds in the payments two requests are parsed to. -/
def parsedTo (a b : Request) (f : ParsedPayment → ParsedPayment → Bool) : Bool :=
  match parseRequest spelledLib a, parseRequest spelledLib b with
  | .ok pa, .ok pb => f pa pb
  | _, _ => false

theorem exists_of_parsedTo {a b : Request} {f : ParsedPayment → ParsedPayment → Bool} (h : parsedTo a b f = true) :
    ∃ pa pb, parseRequest spelledLib a = .ok pa ∧ parseRequest spelledLib b = .ok pb ∧ f pa pb = true := by
  unfold parsedTo at h
  split at h
  · exact ⟨_, _, ‹_›, ‹_›, h⟩
  · cases h

/-- One authorization, spelled with a prefix and bare: two payer texts, two rows, two intents. -/
theorem bare_payer_admitted_twice :
    (Denotes spelledLib (requestFrom samplePayer) (List.replicate 20 51) (List.replicate 32 170) ∧
      Denotes spelledLib (requestFrom barePayer) (List.replicate 20 51) (List.replicate 32 170)) ∧
    ∃ pa pb, parseRequest spelledLib (requestFrom samplePayer) = .ok pa ∧
      parseRequest spelledLib (requestFrom barePayer) = .ok pb ∧ pa.payer ≠ pb.payer ∧
      ∃ x ∈ sampleTwice.tables.payments, ∃ y ∈ sampleTwice.tables.payments, Holds pa x ∧ Holds pb y ∧ x.id ≠ y.id ∧
        rowsOf sampleTwice.tables x.id ≠ [] ∧ rowsOf sampleTwice.tables y.id ≠ [] := by
  refine ⟨⟨denotes_requestFrom (by decide +kernel), denotes_requestFrom (by decide +kernel)⟩, ?_⟩
  have hrun : parsedTo (requestFrom samplePayer) (requestFrom barePayer) (fun pa pb =>
      pa.payer ≠ pb.payer ∧ ∃ x ∈ sampleTwice.tables.payments, ∃ y ∈ sampleTwice.tables.payments, Holds pa x ∧
        Holds pb y ∧ x.id ≠ y.id ∧ rowsOf sampleTwice.tables x.id ≠ [] ∧
          rowsOf sampleTwice.tables y.id ≠ []) = true := by
    decide +kernel
  obtain ⟨pa, pb, ha, hb, h⟩ := exists_of_parsedTo hrun
  exact ⟨pa, pb, ha, hb, of_decide_eq_true h⟩

/-- Spelled the same twice, the authorization has one payer text. -/
theorem authorization_spelled_once_sample : ∃ p, parseRequest spelledLib (requestFrom samplePayer) = .ok p ∧
    Denotes spelledLib (requestFrom samplePayer) (List.replicate 20 51) (List.replicate 32 170) ∧
    ∀ db : DB, ∀ x ∈ db.tables.payments, ∀ y ∈ db.tables.payments, Holds p x → Holds p y → x = y := by
  have hd : Denotes spelledLib (requestFrom samplePayer) (List.replicate 20 51) (List.replicate 32 170) :=
    denotes_requestFrom (by decide +kernel)
  have hrun : parsedTo (requestFrom samplePayer) (requestFrom samplePayer) (fun _ _ => true) = true := by
    decide +kernel
  obtain ⟨p, -, hp, -⟩ := exists_of_parsedTo hrun
  exact ⟨p, hp, hd, ((authorization_spelled_once spelledLib_laws hp hp hd hd).2 rfl).2.2.1⟩

/-! ## Calldata -/

/-- The columns of an accepted payment read back as an authorization that both builders accept, and that both encode
as the same nine words of the accepted arguments, exactly when payer and recipient carry their prefix. -/
theorem stored_authorization_builds {selector : Bytes} {request : Request} {p : ParsedPayment}
    {e : ExactPayload} {q : Payment} (geth : GethLaws lib) (abi : PackLaws lib selector)
    (h : parseRequest lib request = .ok p) (he : lib.payloadFromMap request.paymentPayload.payload = some e)
    (hv : ∀ raw, trimmedBytes e.signature = some raw → raw.getD 64 0 ∈ [(0 : UInt8), 1, 27, 28]) (hs : Stored p q) :
    (∃ auth args, q.authorization = .ok auth ∧ Arguments lib e args ∧
      Settlement.transferWithAuthorizationData lib auth = .ok (selector ++ (argumentWords args).flatten) ∧
      Policy.transferWithAuthorizationData lib auth.wire = .ok (selector ++ (argumentWords args).flatten)) ↔
    has0xPrefix e.authorization.source = true ∧ has0xPrefix e.authorization.target = true := by
  obtain ⟨e', value, after, before, hacc⟩ := accepted_of_parse h
  obtain rfl : e' = e := Option.some.inj (hacc.payload.symm.trans he)
  constructor
  · rintro ⟨auth, args, hauth, -, hdata, -⟩
    rw [hs.authorization] at hauth
    cases hauth
    obtain ⟨-, hpayer, hrecipient, -⟩ := paymentOf_ok hacc.payment
    by_contra hno
    refine refused_address (fun hok => hno ?_) _ hdata
    simp only [hpayer, hrecipient] at hok
    exact ⟨(stored_address geth hacc.source).1.1 hok.1, (stored_address geth hacc.target).1.1 hok.2⟩
  · rintro ⟨hsource, htarget⟩
    exact built_of_prefixes geth abi hacc hs hv hsource htarget

/-- The row of the parsed payment in the sample database. -/
def storedAs (request : Request) (id : Nat) : Bool :=
  parsedTo request request fun p _ => sampleTwice.tables.payments.any fun q => q.id = id ∧ Stored p q

theorem stored_of_storedAs {request : Request} {id : Nat} (h : storedAs request id = true) :
    ∃ p, parseRequest spelledLib request = .ok p ∧ ∃ q ∈ sampleTwice.tables.payments, q.id = id ∧ Stored p q := by
  obtain ⟨p, -, hp, -, hany⟩ := exists_of_parsedTo h
  obtain ⟨q, hq, hid⟩ := List.any_eq_true.1 hany
  exact ⟨p, hp, q, hq, of_decide_eq_true hid⟩

/-- The payload a request is decoded to. -/
def payloadFrom (payer : String) : ExactPayload :=
  ⟨hexText 128 'a' ++ "1b", payer, sampleMerchant, "7", "0", "1", hexText 64 'a'⟩

theorem payloadFrom_recovery (payer : String) (raw : Bytes)
    (h : trimmedBytes (payloadFrom payer).signature = some raw) :
    raw.getD 64 0 ∈ [(0 : UInt8), 1, 27, 28] := by
  have hbytes : trimmedBytes (hexText 128 'a' ++ "1b") = some (List.replicate 64 170 ++ [27]) := by decide +kernel
  obtain rfl := Option.some.inj (hbytes.symm.trans h)
  decide

theorem sampleTwice_stores : storedAs (requestFrom barePayer) 20 = true ∧
    storedAs (requestFrom samplePayer) 10 = true := by
  decide +kernel

/-- The stored payment of the bare payer cannot be encoded. -/
theorem bare_payer_unbuildable : ∃ p, parseRequest spelledLib (requestFrom barePayer) = .ok p ∧
    spelledLib.payloadFromMap (requestFrom barePayer).paymentPayload.payload = some (payloadFrom barePayer) ∧
    (∀ raw, trimmedBytes (payloadFrom barePayer).signature = some raw → raw.getD 64 0 ∈ [(0 : UInt8), 1, 27, 28]) ∧
    ∃ q ∈ sampleTwice.tables.payments, Stored p q ∧ ∃ auth, q.authorization = .ok auth ∧
      ∀ data, Settlement.transferWithAuthorizationData spelledLib auth ≠ .ok data := by
  have hbare : has0xPrefix barePayer = false := by decide +kernel
  obtain ⟨p, hp, q, hq, -, hs⟩ := stored_of_storedAs sampleTwice_stores.1
  refine ⟨p, hp, rfl, payloadFrom_recovery barePayer, q, hq, hs, _, hs.authorization, refused_address fun hok => ?_⟩
  obtain ⟨e, value, after, before, hacc⟩ := accepted_of_parse hp
  obtain rfl : payloadFrom barePayer = e := Option.some.inj hacc.payload
  have hback := (stored_address spelledLib_laws hacc.source).1.1
  rw [← (paymentOf_ok hacc.payment).2.1] at hback
  exact Bool.false_ne_true (hbare.symm.trans (hback hok.1))

/-- The one of the prefixed payer can. -/
theorem stored_authorization_builds_sample : ∃ p, parseRequest spelledLib (requestFrom samplePayer) = .ok p ∧
    ∃ q ∈ sampleTwice.tables.payments, Stored p q ∧
      ∃ auth args, q.authorization = .ok auth ∧ Arguments spelledLib (payloadFrom samplePayer) args ∧
        Settlement.transferWithAuthorizationData spelledLib auth = .ok ([] ++ (argumentWords args).flatten) ∧
        Policy.transferWithAuthorizationData spelledLib auth.wire = .ok ([] ++ (argumentWords args).flatten) := by
  have hprefix : has0xPrefix samplePayer = true ∧ has0xPrefix sampleMerchant = true := by decide +kernel
  obtain ⟨p, hp, q, hq, -, hs⟩ := stored_of_storedAs sampleTwice_stores.2
  exact ⟨p, hp, q, hq, hs, (stored_authorization_builds spelledLib_laws spelledLib_packs hp rfl
    (payloadFrom_recovery samplePayer) hs).2 hprefix⟩

end Eth402.System
