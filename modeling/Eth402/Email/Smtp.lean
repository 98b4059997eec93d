/-
The submission of mail (internal/email/smtp.go), as a program that talks to the server: the constructor, the session,
the encoding of a message and its delivery. Whatever the server answers, nothing of a session is said before TLS with
the configured host is complete; every connection is closed; and a success means that the server took the whole message.
-/
import Eth402.Lib.Program
import Eth402.Lib.Text
import Eth402.Settlement.Types

namespace Eth402.Email

open Lib Settlement

/-! ## Configuration -/

/-- The TLS modes; a value that is neither is kept. -/
inductive SMTPMode
  | startTLS
  | tls
  | other (value : String)
  deriving DecidableEq, Repr

structure SMTPConfig where
  address : String
  username : String
  password : String
  source : String
  tlsMode : SMTPMode
  timeout : Int

/-- `mail.Address`. -/
structure Mailbox where
  name : String
  address : String
  deriving DecidableEq, Repr

/-- The minor version of TLS 1 at least, and the host the certificate has to be for. -/
structure TLSConfig where
  minVersion : Nat
  serverName : String
  deriving DecidableEq, Repr

structure SMTPSender where
  address : String
  host : String
  username : String
  password : String
  source : Mailbox
  tlsMode : SMTPMode
  timeout : Int
  tlsConfig : TLSConfig
  deriving DecidableEq, Repr

/-- What the source takes from Go's libraries. -/
structure MailLibrary where
  splitHostPort : String → Option (String × String)
  parseAddress : String → Option Mailbox
  mailboxText : Mailbox → String
  qEncode : String → String
  formatDate : Time → String
  quotedPrintable : String → String

variable (lib : MailLibrary)

def hasLineBreak (text : String) : Bool := text.toList.any fun c => c = '\r' || c = '\n'

def parseMailbox (value : String) : Except String Mailbox :=
  if value = "" ∨ hasLineBreak value then .error "invalid mailbox"
  else match lib.parseAddress value with
  | none => .error "invalid mailbox"
  | some mailbox => if mailbox.address = "" then .error "invalid mailbox" else .ok mailbox

def newSMTPSender (cfg : SMTPConfig) : Except String SMTPSender :=
  match lib.splitHostPort cfg.address with
  | none => .error "SMTP address must be host:port"
  | some (host, _) =>
    if host = "" then .error "SMTP address must be host:port"
    else if cfg.tlsMode ≠ .startTLS ∧ cfg.tlsMode ≠ .tls then .error "SMTP TLS mode must be starttls or tls"
    else if cfg.timeout ≤ 0 then .error "SMTP timeout must be positive"
    else if decide (cfg.username = "") ≠ decide (cfg.password = "") then
      .error "SMTP username and password must be configured together"
    else match parseMailbox lib cfg.source with
    | .error _ => .error "SMTP from address is invalid"
    | .ok source =>
      .ok ⟨cfg.address, host, cfg.username, cfg.password, source, cfg.tlsMode, cfg.timeout, ⟨2, host⟩⟩

/-! ## Talking to the server -/

/-- An error of the network, or a reply of the server with its code and its text. -/
inductive NetErr
  | reply (code : Nat) (text : String)
  | canceled
  | deadlineExceeded
  | other (text : String)

/-- `smtpError`: the server's text is left out. -/
def smtpError (stage : String) : NetErr → String
  | .reply code _ => "SMTP " ++ stage ++ " failed with status " ++ toString code
  | .canceled => "SMTP " ++ stage ++ " canceled"
  | .deadlineExceeded => "SMTP " ++ stage ++ " timed out"
  | .other _ => "SMTP " ++ stage ++ " failed"

/-- What can fail. `newClient` reads the greeting, and `startTLS` ends with a greeting over TLS. -/
inductive Command
  | dial (address : String)
  | setDeadline (deadline : Time)
  | handshake (cfg : TLSConfig)
  | newClient (host : String)
  | startTLS (cfg : TLSConfig)
  | auth (username password host : String)
  | mail (source : String)
  | rcpt (target : String)
  | data
  | write (text : String)
  | closeWriter
  | quit
  | noop

inductive Handle
  | client | connection

inductive Call
  | now
  | command (c : Command)
  | extension (name : String)
  | tlsConnectionState
  | close (h : Handle)

/-- `tlsConnectionState` is `none` on a plain connection, and else says whether the handshake is complete. -/
@[reducible] def Resp : Call → Type
  | .now => Time
  | .command _ => Except NetErr Unit
  | .extension _ => Bool
  | .tlsConnectionState => Option Bool
  | .close _ => Unit

abbrev P := Prog Call Resp

abbrev Ev := Event Call Resp

abbrev ask (c : Call) : P (Resp c) := Prog.perform c

/-- One command, and what follows when it succeeds. -/
def stage (name : String) (c : Command) (next : P (Except String Unit)) : P (Except String Unit) := do
  match ← ask (.command c) with
  | .error e => pure (.error (smtpError name e))
  | .ok () => next

/-- The end of `open`: no session without TLS, and authentication. -/
def authenticate (s : SMTPSender) : P (Except String Unit) := do
  match ← ask .tlsConnectionState with
  | some true =>
    if s.username = "" then pure (.ok ())
    else stage "authentication" (.auth s.username s.password s.host) (pure (.ok ()))
  | _ => do
    ask (.close .client)
    pure (.error "SMTP session is not protected by TLS")

/-- `open` once it is connected. -/
def establish (s : SMTPSender) (deadline : Time) : P (Except String Unit) := do
  match ← ask (.command (.setDeadline deadline)) with
  | .error _ => pure (.error "SMTP deadline setup failed")
  | .ok () =>
    match s.tlsMode with
    | .tls =>
      stage "TLS handshake" (.handshake s.tlsConfig) <| stage "session setup" (.newClient s.host) <| authenticate s
    | .startTLS => stage "session setup" (.newClient s.host) <| do
      if ← ask (.extension "STARTTLS") then stage "session setup" (.startTLS s.tlsConfig) <| authenticate s
      else do
        ask (.close .client)
        pure (.error "SMTP server does not advertise required STARTTLS")
    | .other _ => pure (.error "SMTP TLS mode is invalid")

/-- `open`: the connection is released unless a session comes of it. -/
def openSession (s : SMTPSender) (contextDeadline : Option Time) : P (Except String Unit) := do
  let now ← ask .now
  let deadline := (contextDeadline.filter (· < now + s.timeout)).getD (now + s.timeout)
  stage "connect" (.dial s.address) <| do
    match ← establish s deadline with
    | .error e => do
      ask (.close .connection)
      pure (.error e)
    | .ok () => pure (.ok ())

structure Message where
  target : String
  subject : String
  textBody : String

def headers (s : SMTPSender) (now : Time) (message : Message) (target : Mailbox) : List String :=
  ["Date: " ++ lib.formatDate now, "From: " ++ lib.mailboxText s.source, "To: " ++ lib.mailboxText target,
    "Subject: " ++ lib.qEncode message.subject, "MIME-Version: 1.0", "Content-Type: text/plain; charset=UTF-8",
    "Content-Transfer-Encoding: quoted-printable"]

def content (s : SMTPSender) (now : Time) (message : Message) (target : Mailbox) : String :=
  String.join ((headers lib s now message target).map (· ++ "\r\n")) ++ "\r\n" ++ lib.quotedPrintable message.textBody

/-- `encode`; writing to a buffer does not fail. -/
def encode (s : SMTPSender) (now : Time) (message : Message) (target : Mailbox) : Except String String :=
  if hasLineBreak message.subject then .error "email subject contains a line break"
  else if (headers lib s now message target).any hasLineBreak then .error "email header contains a line break"
  else .ok (content lib s now message target)

/-- The commands of a delivery. -/
def transmit (s : SMTPSender) (target : Mailbox) (encoded : String) : P (Except String Unit) :=
  stage "sender" (.mail s.source.address) <| stage "recipient" (.rcpt target.address) <| stage "data" .data <| do
    match ← ask (.command (.write encoded)) with
    | .error e => do
      let _ ← ask (.command .closeWriter)
      pure (.error (smtpError "body" e))
    | .ok () => stage "delivery" .closeWriter <| stage "quit" .quit <| pure (.ok ())

/-- A session, closed in the end. -/
def within (s : SMTPSender) (contextDeadline : Option Time) (work : P (Except String Unit)) :
    P (Except String Unit) := do
  match ← openSession s contextDeadline with
  | .error e => pure (.error e)
  | .ok () => do
    let result ← work
    ask (.close .client)
    pure result

def send (s : SMTPSender) (contextDeadline : Option Time) (message : Message) : P (Except String Unit) :=
  match parseMailbox lib message.target with
  | .error _ => pure (.error "email recipient is invalid")
  | .ok target => do
    let now ← ask .now
    match encode lib s now message target with
    | .error e => pure (.error e)
    | .ok encoded => within s contextDeadline (transmit s target encoded)

def probe (s : SMTPSender) (contextDeadline : Option Time) : P (Except String Unit) :=
  within s contextDeadline <| stage "probe" .noop <| stage "quit" .quit <| pure (.ok ())

/-! ## What holds of every session -/

/-- TLS was set up with this configuration, and then reported complete. -/
def Secured (cfg : TLSConfig) (past : List Ev) : Prop :=
  ∃ c, (c = .handshake cfg ∨ c = .startTLS cfg) ∧
    [(⟨.command c, .ok ()⟩ : Ev), ⟨.tlsConnectionState, some true⟩].Sublist past

/-- The commands that say who writes what to whom, and those that only a session has. -/
def Command.inSession : Command → Bool
  | .auth .. | .mail _ | .rcpt _ | .data | .write _ | .closeWriter | .quit | .noop => true
  | _ => false

/-- Nothing of a session without TLS. -/
def Protected (cfg : TLSConfig) (past : List Ev) : Call → Prop
  | .command c => c.inSession = true → Secured cfg past
  | _ => True

/-- Whether an event leaves a connection behind. -/
def connectedAfter (before : Bool) : Ev → Bool
  | ⟨.command (.dial _), .ok ()⟩ => true
  | ⟨.close _, _⟩ => false
  | _ => before

def connected (past : List Ev) : Bool := past.foldl connectedAfter false

@[simp] theorem connected_snoc (past : List Ev) (e : Ev) :
    connected (past ++ [e]) = connectedAfter (connected past) e := by
  simp [connected]

/-- The commands of an accepted message. -/
def delivery (s : SMTPSender) (target : Mailbox) (text : String) : List Ev :=
  [.mail s.source.address, .rcpt target.address, .data, .write text, .closeWriter, .quit].map fun c =>
    ⟨.command c, .ok ()⟩

/-- The session ended with the message taken by the server, and no line of its header was broken. -/
def Delivered (s : SMTPSender) (message : Message) (past : List Ev) : Prop :=
  ∃ target now before, parseMailbox lib message.target = .ok target ∧
    (∀ line ∈ headers lib s now message target, hasLineBreak line = false) ∧
    past = before ++ delivery s target (content lib s now message target) ++ [⟨.close .client, ()⟩]

variable {cfg : TLSConfig} {c : Command}

section Sessions

variable {lib} {s : SMTPSender} {past : List Ev} {contextDeadline : Option Time}

theorem Secured.mono {past' : List Ev} (h : Secured cfg past) (hp : past <+: past') : Secured cfg past' := by
  obtain ⟨c, hc, hs⟩ := h
  exact ⟨c, hc, hs.trans hp.sublist⟩

theorem Secured.snoc (h : Secured cfg past) (e : Ev) : Secured cfg (past ++ [e]) :=
  h.mono (List.prefix_append _ _)

/-- What sets a session up is allowed before TLS. -/
theorem Protected.setup (h : c.inSession = false) : Protected cfg past (.command c) := by
  intro hc
  rw [h] at hc
  cases hc

/-- An error is no success, so whatever is asked of a success holds. -/
theorem of_error {e : String} {T : Prop} (h : (.error e : Except String Unit) = .ok ()) : T := by
  cases h

theorem wp_stage {J : List Ev → Call → Prop} {name : String} {next : P (Except String Unit)}
    {Q : List Ev → Except String Unit → Prop} (hc : J past (.command c))
    (hfail : ∀ e, Q (past ++ [⟨.command c, .error e⟩]) (.error (smtpError name e)))
    (hnext : Prog.wp J (past ++ [⟨.command c, .ok ()⟩]) next Q) : Prog.wp J past (stage name c next) Q := by
  simp only [stage, ask, Prog.wp_bind, Prog.wp_perform]
  refine ⟨hc, fun answer => ?_⟩
  cases answer with
  | error e => exact hfail e
  | ok _ => exact hnext

theorem wp_accepted {name : String} {next : P (Except String Unit)} {T : List Ev → Prop}
    (hc : Protected cfg past (.command c))
    (hnext : Prog.wp (Protected cfg) (past ++ [⟨.command c, .ok ()⟩]) next fun past' r => r = .ok () → T past') :
    Prog.wp (Protected cfg) past (stage name c next) fun past' r => r = .ok () → T past' :=
  wp_stage hc (fun _ => of_error) hnext

theorem authenticate_secured (hc : c = .handshake s.tlsConfig ∨ c = .startTLS s.tlsConfig)
    (hp : (⟨.command c, .ok ()⟩ : Ev) ∈ past) :
    Prog.wp (Protected s.tlsConfig) past (authenticate s) fun past' r => r = .ok () → Secured s.tlsConfig past' := by
  simp only [authenticate, ask, Prog.wp_bind, Prog.wp_perform]
  refine ⟨trivial, fun answer => ?_⟩
  rcases answer with _ | _ | _
  -- a plain connection, and a handshake that is not complete
  · exact ⟨trivial, fun _ => of_error⟩
  · exact ⟨trivial, fun _ => of_error⟩
  · have hs : Secured s.tlsConfig (past ++ [⟨.tlsConnectionState, some true⟩]) :=
      ⟨c, hc, (List.singleton_sublist.2 hp).append (List.Sublist.refl _)⟩
    refine Prog.wp_ite (fun _ _ => hs) fun _ => ?_
    exact wp_accepted (fun _ => hs) fun _ => hs.snoc _

theorem establish_secured (s : SMTPSender) (deadline : Time) :
    Prog.wp (Protected s.tlsConfig) past (establish s deadline) fun past' r =>
      r = .ok () → Secured s.tlsConfig past' := by
  simp only [establish, ask, Prog.wp_bind, Prog.wp_perform]
  refine ⟨.setup rfl, fun answer => ?_⟩
  cases answer with
  | error e => exact of_error
  | ok _ =>
    cases s.tlsMode with
    | tls =>
      refine wp_accepted (.setup rfl) ?_
      refine wp_accepted (.setup rfl) ?_
      exact authenticate_secured (.inl rfl) (by simp)
    | startTLS =>
      refine wp_accepted (.setup rfl) ?_
      simp only [Prog.wp_bind, Prog.wp_perform]
      refine ⟨trivial, fun supported => ?_⟩
      cases supported with
      | false => exact ⟨trivial, fun _ => of_error⟩
      | true =>
        refine wp_accepted (.setup rfl) ?_
        exact authenticate_secured (.inr rfl) (by simp)
    | other _ => exact of_error

/-- A session is secured, and what fails before there is one leaves no connection. -/
theorem openSession_secured (hp : connected past = false) :
    Prog.wp (Protected s.tlsConfig) past (openSession s contextDeadline) fun past' r =>
      (r = .ok () → Secured s.tlsConfig past') ∧ (r ≠ .ok () → connected past' = false) := by
  simp only [openSession, ask, Prog.wp_bind, Prog.wp_perform]
  refine ⟨trivial, fun now => wp_stage (.setup rfl) (fun e => ⟨of_error, fun _ => ?_⟩) ?_⟩
  · rw [connected_snoc, connected_snoc, hp]; rfl
  · simp only [Prog.wp_bind]
    refine Prog.wp_mono (fun past' r hr => ?_) (establish_secured s _)
    cases r with
    | ok _ => exact ⟨hr, fun h => (h rfl).elim⟩
    | error e => exact ⟨trivial, fun _ => ⟨of_error, fun _ => connected_snoc ..⟩⟩

/-- What is done in a session that `within` opens: `script` when it succeeds. -/
theorem within_secured {work : P (Except String Unit)} {script : List Ev} (hp : connected past = false)
    (hwork : ∀ past', Secured s.tlsConfig past' →
      Prog.wp (Protected s.tlsConfig) past' work fun past'' r => r = .ok () → past'' = past' ++ script) :
    Prog.wp (Protected s.tlsConfig) past (within s contextDeadline work) fun past' r =>
      connected past' = false ∧ (r = .ok () → ∃ before, past' = before ++ script ++ [⟨.close .client, ()⟩]) := by
  simp only [within, ask, Prog.wp_bind]
  refine Prog.wp_mono (fun past' r hr => ?_) (openSession_secured hp)
  cases r with
  | error e => exact ⟨hr.2 of_error, of_error⟩
  | ok _ =>
    simp only [Prog.wp_bind, Prog.wp_perform]
    refine Prog.wp_mono (fun past'' r hr' => ?_) (hwork past' (hr.1 rfl))
    exact ⟨trivial, fun _ => ⟨connected_snoc .., fun h => ⟨past', by rw [hr' h]⟩⟩⟩

theorem transmit_secured (target : Mailbox) (text : String) (h : Secured s.tlsConfig past) :
    Prog.wp (Protected s.tlsConfig) past (transmit s target text) fun past' r =>
      r = .ok () → past' = past ++ delivery s target text := by
  refine wp_accepted (fun _ => h) ?_
  refine wp_accepted (fun _ => h.mono (by simp)) ?_
  refine wp_accepted (fun _ => h.mono (by simp)) ?_
  simp only [ask, Prog.wp_bind, Prog.wp_perform]
  refine ⟨fun _ => h.mono (by simp), fun answer => ?_⟩
  cases answer with
  | error e => exact ⟨fun _ => h.mono (by simp), fun _ => of_error⟩
  | ok _ =>
    refine wp_accepted (fun _ => h.mono (by simp)) ?_
    refine wp_accepted (fun _ => h.mono (by simp)) fun _ => ?_
    simp [delivery]

theorem probe_secured (hp : connected past = false) :
    Prog.wp (Protected s.tlsConfig) past (probe s contextDeadline) fun past' r =>
      connected past' = false ∧ (r = .ok () → ∃ before,
        past' = before ++ [⟨.command .noop, .ok ()⟩, ⟨.command .quit, .ok ()⟩] ++ [⟨.close .client, ()⟩]) := by
  refine within_secured hp fun past' h => ?_
  refine wp_accepted (fun _ => h) ?_
  refine wp_accepted (fun _ => h.snoc _) fun _ => ?_
  simp

theorem send_secured (message : Message) :
    Prog.wp (Protected s.tlsConfig) [] (send lib s contextDeadline message) fun past r =>
      connected past = false ∧ (r = .ok () → Delivered lib s message past) := by
  unfold send
  cases htarget : parseMailbox lib message.target with
  | error e => exact ⟨rfl, of_error⟩
  | ok target =>
    simp only [ask, Prog.wp_bind, Prog.wp_perform]
    refine ⟨trivial, fun now => ?_⟩
    have hnow : connected ([] ++ [(⟨.now, now⟩ : Ev)]) = false := connected_snoc ..
    unfold encode
    split_ifs with hsubject hheaders
    · exact ⟨hnow, of_error⟩
    · exact ⟨hnow, of_error⟩
    · refine Prog.wp_mono (fun past r hr => ⟨hr.1, fun h => ?_⟩)
        (within_secured hnow fun past' h => transmit_secured target (content lib s now message target) h)
      obtain ⟨before, hpast⟩ := hr.2 h
      exact ⟨target, now, before, htarget, by simpa using hheaders, hpast⟩

theorem newSMTPSender_tls {cfg : SMTPConfig} (h : newSMTPSender lib cfg = .ok s) :
    ∃ host port, lib.splitHostPort cfg.address = some (host, port) ∧ s.tlsConfig = ⟨2, host⟩ := by
  unfold newSMTPSender at h
  cases haddress : lib.splitHostPort cfg.address with
  | none => rw [haddress] at h; cases h
  | some parts =>
    obtain ⟨host, port⟩ := parts
    rw [haddress] at h
    dsimp only at h
    split_ifs at h
    cases hsource : parseMailbox lib cfg.source with
    | error e => rw [hsource] at h; cases h
    | ok source => rw [hsource] at h; cases h; exact ⟨host, port, rfl, rfl⟩

end Sessions

/-- Whatever the server and the network answer, a configured sender says nothing of a session before TLS with the
configured host is complete, closes every connection it opened, and reports a message as sent only when the server took
it whole, header lines unbroken. -/
theorem mail_goes_over_tls (cfg : SMTPConfig) (s : SMTPSender) (h : newSMTPSender lib cfg = .ok s)
    (contextDeadline : Option Time) (message : Message) :
    ∃ host port, lib.splitHostPort cfg.address = some (host, port) ∧
      Prog.wp (Protected ⟨2, host⟩) [] (send lib s contextDeadline message) (fun past r =>
        connected past = false ∧ (r = .ok () → Delivered lib s message past)) ∧
      Prog.wp (Protected ⟨2, host⟩) [] (probe s contextDeadline) (fun past r =>
        connected past = false ∧ (r = .ok () → ∃ before,
          past = before ++ [⟨.command .noop, .ok ()⟩, ⟨.command .quit, .ok ()⟩] ++ [⟨.close .client, ()⟩])) := by
  obtain ⟨host, port, haddress, hcfg⟩ := newSMTPSender_tls h
  exact ⟨host, port, haddress, hcfg ▸ send_secured message, hcfg ▸ probe_secured rfl⟩

/-- A host and a port, with one colon between them. -/
def samplePort (text : String) : Option (String × String) :=
  match (chars text).span (· ≠ ':') with
  | (host, ':' :: port) => if ':' ∈ port then none else some (String.ofList host, String.ofList port)
  | _ => none

/-- A library that reads every text as an address of a mailbox. -/
def sampleMail : MailLibrary :=
  ⟨samplePort, fun text => some ⟨"", text⟩, Mailbox.address, id, fun _ => "", id⟩

theorem mail_goes_over_tls_sample : ∃ s, newSMTPSender sampleMail ⟨"mail:587", "", "", "a@b", .startTLS, 1⟩ = .ok s ∧
    Prog.wp (Protected ⟨2, "mail"⟩) [] (send sampleMail s none ⟨"c@d", "Hello", "Hi"⟩) fun past r =>
      connected past = false ∧ (r = .ok () → Delivered sampleMail s ⟨"c@d", "Hello", "Hi"⟩ past) := by
  have h : newSMTPSender sampleMail ⟨"mail:587", "", "", "a@b", .startTLS, 1⟩ =
      .ok ⟨"mail:587", "mail", "", "", ⟨"", "a@b"⟩, .startTLS, 1, ⟨2, "mail"⟩⟩ := by decide +kernel
  refine ⟨_, h, ?_⟩
  obtain ⟨host, port, haddress, hsend, -⟩ := mail_goes_over_tls sampleMail _ _ h none ⟨"c@d", "Hello", "Hi"⟩
  cases haddress
  exact hsend

end Eth402.Email
