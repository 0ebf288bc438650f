import EarnProxy.Checks
import EarnProxy.Json
import EarnProxy.Swap.Address

/-!
# `app/earnapp_probe.py`

The dialogue of an EarnApp probe. A round of the loop reads the clock, a frame of the server, and
may answer it. The server chooses the frames, and `json.loads` is a function of the payload. What
the probe reads of the clock for `latency_ms` is not here.
-/

namespace EarnProxy

/-! ## Exceptions -/

/-- `text[:300]`. -/
def Text.first300 (text : String) : String := String.ofList (text.toList.take 300)

/-- The messages without details that the probe and the resolver raise. -/
def probeMessages : List String :=
  ["Proxy target did not resolve to a valid IP address",
    "Proxy target resolves to a non-public IP address", "Proxy target must use a public host",
    "Legacy numeric proxy host aliases are not allowed", "Proxy host is invalid",
    "Proxy host returned no usable DNS addresses", "WebSocket frame is too large",
    "HTTP headers are too large", "SOCKS5 authentication method rejected",
    "SOCKS5 credentials are too long", "SOCKS5 credentials rejected",
    "SOCKS5 proxy requires unsupported authentication",
    "SOCKS5 proxy returned an unknown address type",
    "EarnApp probe supports only http and socks5 proxies",
    "WSS handshake returned an invalid accept token"]

/-- The messages that quote what the other side has said. -/
def probeMessageHeads : List String :=
  ["Proxy host cannot be resolved: ", "SOCKS5 CONNECT failed with code ", "HTTP CONNECT rejected: ",
    "WSS handshake rejected: "]

/-- A text is not read as the reason of a decline. -/
def Text.Foreign (text : String) : Prop := Text.strip (Text.first300 text) ≠ "earnapp_blacklist"

instance (text : String) : Decidable (Text.Foreign text) := inferInstanceAs (Decidable (_ ≠ _))

/-- The exceptions that the last handler catches. Those of Python, its libraries and the operating
system have texts of their own, and none of them knows the reason of a decline. -/
inductive Failure where
  | fixed (text : String) (mem : text ∈ probeMessages)
  | quoting (head : String) (mem : head ∈ probeMessageHeads) (detail : String)
  /-- `message.get` of a value that is no dict. -/
  | noAttribute (typeName : String)
  | library (text : String) (foreign : Text.Foreign text)

/-- `str(exc)`. -/
def Failure.text : Failure → String
  | fixed text _ | library text _ => text
  | quoting head _ detail => head ++ detail
  | noAttribute typeName => "'" ++ typeName ++ "' object has no attribute 'get'"

/-- What ends the `try` block. -/
inductive Interruption where
  | timeout
  | failure (failure : Failure)

/-- What `json.loads(payload.decode("utf-8"))` does: the first case is one of the two errors that
are caught there. -/
inductive Decoded where
  | undecodable
  | value (value : Json)
  | raises (failure : Failure)

/-! ## The dialogue -/

inductive Verdict where
  | unknown | timeout | wssClose | blacklist | decline | protocolFail | cidSet | wssFail
  deriving DecidableEq, Repr

def Verdict.text : Verdict → String
  | unknown => "UNKNOWN"
  | timeout => "TIMEOUT"
  | wssClose => "WSS_CLOSE"
  | blacklist => "BLACKLIST"
  | decline => "DECLINE"
  | protocolFail => "PROTOCOL_FAIL"
  | cidSet => "CID_SET"
  | wssFail => "WSS_FAIL"

/-- `result`. -/
structure ProbeResult where
  verdict : Verdict := .unknown
  reason : String := ""
  exitIp : String := ""
  egressTrusted : Bool := false
  deriving DecidableEq, Repr

/-- `result["eligibility"]`, which is written last. -/
def ProbeResult.eligibility (result : ProbeResult) : Eligibility :=
  classifyVerdict result.verdict.text result.reason

def ProbeResult.update (result : ProbeResult) (verdict : Verdict) (reason : String) : ProbeResult :=
  { result with verdict := verdict, reason := reason }

/-- A JSON object that the server has sent. -/
structure Message where
  fields : List (String × Json)
  deriving Repr

namespace Message

variable (message : Message)

/-- `msg_type`. -/
def type : String := (Json.get message.fields "type").strOrEmpty

/-- `command`. -/
def command : String := (Json.get message.fields "cmd").strOrEmpty

/-- `data`. -/
def data : List (String × Json) :=
  match Json.get message.fields "msg" with
  | .dict fields _ => fields
  | _ => []

/-- `str(data.get(key) or "")`. -/
def dataText (key : String) : String := (Json.get message.data key).strOrEmpty

end Message

/-- What the probe sends. -/
inductive Reply where
  | pong (payload : List UInt8)
  /-- An `ipc_result` with the identity of the tunnel. -/
  | identity (command : String) (cookie : Json)
  | idle (command : String) (cookie : Json)
  | ok (command : String) (cookie : Json)
  deriving Repr

/-- What `read_server_frame` does. -/
inductive Arrival where
  | frame (opcode : Nat) (payload : List UInt8)
  | interrupted (interruption : Interruption)

/-- What a round of the loop meets: whether time is left, what is read, and what an answer
raises. -/
structure Round where
  timeLeft : Bool
  arrival : Arrival
  answer : Option Interruption := none

/-- The variables of the loop. -/
structure Dialogue where
  result : ProbeResult := {}
  tunnelInitialized : Bool := false
  sent : List Reply := []
  deriving Repr

/-- A round continues the loop, or leaves the `try` block. -/
inductive DialogueTurn where
  | next (dialogue : Dialogue)
  | left (result : ProbeResult)

section Probe

variable (loads : List UInt8 → Decoded) (waitMs : Nat)

/-- The reason of a timeout. -/
def timeoutReason : String := "no decline/cid in " ++ toString waitMs ++ "ms"

/-- The two handlers. -/
def ProbeResult.interrupted (result : ProbeResult) : Interruption → ProbeResult
  | .timeout => result.update .timeout (timeoutReason waitMs)
  | .failure failure => result.update .wssFail (Text.first300 failure.text)

/-- `writer.write` and `writer.drain`. -/
def Dialogue.send (dialogue : Dialogue) (reply : Reply) : Option Interruption → DialogueTurn
  | none => .next { dialogue with sent := dialogue.sent ++ [reply] }
  | some interruption => .left (dialogue.result.interrupted waitMs interruption)

/-- The rest of a round once a message is decoded. -/
def Dialogue.handle (dialogue : Dialogue) (message : Message) (answer : Option Interruption) :
    DialogueTurn :=
  let result := dialogue.result
  let cookie := Json.get message.fields "cookie"
  if message.type = "ipc_post" ∧ message.command = "tunnel_init_decline" then
    let reason := message.dataText "reason"
    .left (result.update (if reason = "earnapp_blacklist" then .blacklist else .decline) reason)
  else if message.type = "ipc_post" ∧ message.command = "cid_set" then
    let cid := Text.strip (message.dataText "cid")
    if dialogue.tunnelInitialized = false ∨ cid = "" then
      .left (result.update .protocolFail "cid_set arrived before a valid tunnel_init")
    else if result.exitIp = "" then
      .left (result.update .protocolFail "tunnel_init did not provide a valid external IP")
    else .left (result.update .cidSet cid)
  else if message.type = "ipc_call" ∧ message.command = "tunnel_init" then
    match ipAddress (Text.strip (message.dataText "ext_ip")) with
    | none => .left (result.update .protocolFail "tunnel_init returned an invalid external IP")
    | some ip =>
      { dialogue with
        result := { result with exitIp := ip.compressed, egressTrusted := true }
        tunnelInitialized := true }.send waitMs (.identity message.command cookie) answer
  else if message.type = "ipc_call" ∧ message.command = "tunnel_init_done" then
    dialogue.send waitMs (.ok message.command cookie) answer
  else if message.type = "ipc_call" ∧ message.command = "check_status_send" then
    dialogue.send waitMs (.idle message.command cookie) answer
  else .next dialogue

/-- A round of the loop. -/
def Dialogue.turn (dialogue : Dialogue) (round : Round) : DialogueTurn :=
  if round.timeLeft = false then .left (dialogue.result.update .timeout (timeoutReason waitMs))
  else match round.arrival with
    | .interrupted interruption => .left (dialogue.result.interrupted waitMs interruption)
    | .frame 8 _ => .left (dialogue.result.update .wssClose "server closed connection")
    | .frame 9 payload => dialogue.send waitMs (.pong payload) round.answer
    | .frame 1 payload =>
      match loads payload with
      | .undecodable => .next dialogue
      | .raises failure => .left (dialogue.result.interrupted waitMs (.failure failure))
      | .value (.dict fields _) => dialogue.handle waitMs ⟨fields⟩ round.answer
      | .value value =>
        .left (dialogue.result.interrupted waitMs (.failure (.noAttribute value.typeName)))
    | .frame _ _ => .next dialogue

/-- The loop; `none` if it goes on after the rounds. -/
def Dialogue.run (dialogue : Dialogue) : List Round → Option ProbeResult
  | [] => none
  | round :: rest =>
    match dialogue.turn loads waitMs round with
    | .next dialogue => dialogue.run rest
    | .left result => some result

/-- `probe_earnapp_proxy`, with what opening the tunnel raises. -/
def probeEarnappProxy (opening : Option Interruption) (rounds : List Round) : Option ProbeResult :=
  match opening with
  | some interruption => some (({} : ProbeResult).interrupted waitMs interruption)
  | none => ({} : Dialogue).run loads waitMs rounds

/-- The message that a round receives. -/
def Round.message? (round : Round) : Option Message :=
  match round.timeLeft, round.arrival with
  | true, .frame 1 payload =>
    match loads payload with
    | .value (.dict fields _) => some ⟨fields⟩
    | _ => none
  | _, _ => none

/-- The messages received until the loop is left. -/
def Dialogue.received (dialogue : Dialogue) : List Round → List Message
  | [] => []
  | round :: rest =>
    (round.message? loads).toList ++
      match dialogue.turn loads waitMs round with
      | .next dialogue => dialogue.received rest
      | .left _ => []

/-- The messages received by a probe. -/
def probeReceived (opening : Option Interruption) (rounds : List Round) : List Message :=
  match opening with
  | some _ => []
  | none => ({} : Dialogue).received loads waitMs rounds

end Probe

/-! ## Texts -/

theorem Text.stripChars_prefix_of_head {c : Char} (cs : List Char) (h : Text.isSpace c = false) :
    Text.stripChars (c :: cs) <+: c :: cs := by
  have hfront : (c :: cs).dropWhile Text.isSpace = c :: cs := by
    rw [List.dropWhile_cons, h]
    rfl
  have hback := List.rdropWhile_prefix Text.isSpace ((c :: cs).dropWhile Text.isSpace)
  rw [hfront] at hback
  unfold Text.stripChars
  rw [hfront]
  exact hback

/-- `strip` keeps a first character that is no blank. -/
theorem Text.strip_ne_of_head {text other : String} {c d : Char} (h : text.toList.head? = some c)
    (hspace : Text.isSpace c = false) (hother : other.toList.head? = some d) (hne : c ≠ d) :
    Text.strip text ≠ other := by
  rintro rfl
  obtain ⟨cs, hcs⟩ := List.head?_eq_some_iff.mp h
  have hprefix := Text.stripChars_prefix_of_head cs hspace
  rw [Text.strip, String.toList_ofList, hcs] at hother
  obtain ⟨ds, hds⟩ := List.head?_eq_some_iff.mp hother
  rw [hds] at hprefix
  exact hne (List.cons_prefix_cons.mp hprefix).1.symm

theorem head?_earnappBlacklist : "earnapp_blacklist".toList.head? = some 'e' := by decide

theorem Text.foreign_of_head {text : String} {c : Char} (h : text.toList.head? = some c)
    (hspace : Text.isSpace c = false) (hne : c ≠ 'e') : Text.Foreign text := by
  have hfirst : (Text.first300 text).toList.head? = some c := by
    obtain ⟨cs, hcs⟩ := List.head?_eq_some_iff.mp h
    rw [Text.first300, String.toList_ofList, hcs]
    rfl
  exact Text.strip_ne_of_head hfirst hspace head?_earnappBlacklist hne

theorem Text.foreign_ofList {c : Char} {cs : List Char} (hspace : Text.isSpace c = false)
    (hne : c ≠ 'e') : Text.Foreign (String.ofList (c :: cs)) := by
  refine Text.foreign_of_head ?_ hspace hne
  rw [String.toList_ofList, List.head?_cons]

theorem strip_timeoutReason (waitMs : Nat) :
    Text.strip (timeoutReason waitMs) ≠ "earnapp_blacklist" := by
  have hfront : "no decline/cid in ".toList.head? = some 'n' := by decide
  have hhead : (timeoutReason waitMs).toList.head? = some 'n' := by
    unfold timeoutReason
    rw [String.toList_append, String.toList_append, List.append_assoc, List.head?_append, hfront,
      Option.some_or]
  exact Text.strip_ne_of_head hhead (by decide) head?_earnappBlacklist (by decide)

theorem Failure.foreign (failure : Failure) : Text.Foreign failure.text := by
  cases failure with
  | fixed text mem =>
    have hall : ∀ text ∈ probeMessages, Text.Foreign text := by
      simp only [probeMessages, List.forall_mem_cons]
      and_intros
      all_goals first | exact Text.foreign_ofList (by decide) (by decide) | simp
    exact hall text mem
  | quoting head mem detail =>
    have hall : ∀ head ∈ probeMessageHeads, ∃ c, head.toList.head? = some c ∧
        Text.isSpace c = false ∧ c ≠ 'e' := by
      simp only [probeMessageHeads, List.forall_mem_cons]
      refine ⟨⟨_, rfl, by decide⟩, ⟨_, rfl, by decide⟩, ⟨_, rfl, by decide⟩, ⟨_, rfl, by decide⟩,
        ?_⟩
      simp
    obtain ⟨c, hc, hspace, hne⟩ := hall head mem
    refine Text.foreign_of_head ?_ hspace hne
    rw [Failure.text, String.toList_append, List.head?_append, hc]
    rfl
  | noAttribute typeName =>
    have hhead : (Failure.noAttribute typeName).text.toList.head? = some '\'' := by
      simp [Failure.text, String.toList_append]
    exact Text.foreign_of_head hhead (by decide) (by decide)
  | library text foreign => exact foreign

theorem Verdict.classify_text (verdict : Verdict) (reason : String) :
    classifyVerdict verdict.text reason =
      match verdict with
      | .cidSet => .allow
      | .blacklist | .decline => .risk
      | _ => if Text.strip reason = "earnapp_blacklist" then .risk else .pending := by
  have hvalue : Text.upper (Text.strip (if verdict.text = "" then "UNKNOWN" else verdict.text)) =
      verdict.text := by
    cases verdict <;> decide +kernel
  unfold classifyVerdict
  rw [hvalue]
  cases verdict <;> simp [Verdict.text]

/-! ## Soundness -/

namespace Message

/-- The address that a valid `tunnel_init` reports. -/
def tunnelInit? (message : Message) : Option IpAddress :=
  if message.type = "ipc_call" ∧ message.command = "tunnel_init" then
    ipAddress (Text.strip (message.dataText "ext_ip"))
  else none

/-- A `cid_set` with a cid. -/
def IsCidSet (message : Message) : Prop :=
  message.type = "ipc_post" ∧ message.command = "cid_set" ∧ Text.strip (message.dataText "cid") ≠ ""

def IsDecline (message : Message) : Prop :=
  message.type = "ipc_post" ∧ message.command = "tunnel_init_decline"

end Message

/-- Trusted egress is that of the last valid `tunnel_init`. -/
def ProbeResult.Attested (result : ProbeResult) (received : List Message) : Prop :=
  result.egressTrusted = true →
    ∃ ip, (received.filterMap Message.tunnelInit?).getLast? = some ip ∧
      result.exitIp = ip.compressed

/-- What the result owes to the messages received. -/
structure ProbeResult.Sound (result : ProbeResult) (received : List Message) : Prop where
  allow : result.verdict = .cidSet → ∃ before message, received = before ++ [message] ∧
    message.IsCidSet ∧ ∃ init ∈ before, init.tunnelInit?.isSome
  risk : result.eligibility = .risk → ∃ message ∈ received, message.IsDecline
  attested : result.Attested received

/-- The invariant of the loop. -/
structure Dialogue.Sound (dialogue : Dialogue) (received : List Message) : Prop where
  initialized : dialogue.tunnelInitialized = true → ∃ init ∈ received, init.tunnelInit?.isSome
  attested : dialogue.result.Attested received

/-- A round keeps the invariant, or leaves the loop with a result that is sound. -/
def DialogueTurn.Sound (turn : DialogueTurn) (received : List Message) : Prop :=
  match turn with
  | .next dialogue => dialogue.Sound received
  | .left result => result.Sound received

theorem ProbeResult.Attested.append {result : ProbeResult} {received : List Message}
    (h : result.Attested received) {message : Message} (hmessage : message.tunnelInit? = none) :
    result.Attested (received ++ [message]) := by
  intro htrusted
  obtain ⟨ip, hip, hexit⟩ := h htrusted
  refine ⟨ip, ?_, hexit⟩
  rw [List.filterMap_append, List.filterMap_cons_none hmessage]
  simpa using hip

theorem Dialogue.Sound.append {dialogue : Dialogue} {received : List Message}
    (h : dialogue.Sound received) {message : Message} (hmessage : message.tunnelInit? = none) :
    dialogue.Sound (received ++ [message]) where
  initialized := by
    intro hinitialized
    obtain ⟨init, hinit, hvalid⟩ := h.initialized hinitialized
    exact ⟨init, List.mem_append_left _ hinit, hvalid⟩
  attested := h.attested.append hmessage

/-- A verdict that decides nothing, with a reason of the probe's own. -/
theorem ProbeResult.Attested.undecided {result : ProbeResult} {received : List Message}
    (h : result.Attested received) {verdict : Verdict} {reason : String}
    (hverdict : verdict ≠ .cidSet ∧ verdict ≠ .blacklist ∧ verdict ≠ .decline)
    (hreason : Text.strip reason ≠ "earnapp_blacklist") :
    (result.update verdict reason).Sound received where
  allow hallow := absurd hallow hverdict.1
  risk := by
    intro hrisk
    unfold ProbeResult.eligibility at hrisk
    rw [Verdict.classify_text] at hrisk
    obtain ⟨hcid, hblacklist, hdecline⟩ := hverdict
    cases verdict <;> simp_all [ProbeResult.update]
  attested := h

section Run

variable {loads : List UInt8 → Decoded} {waitMs : Nat} {dialogue : Dialogue}
  {received : List Message}

theorem ProbeResult.Attested.interrupted {result : ProbeResult} (h : result.Attested received)
    (interruption : Interruption) : (result.interrupted waitMs interruption).Sound received := by
  cases interruption with
  | timeout => exact h.undecided (by decide) (strip_timeoutReason waitMs)
  | failure failure => exact h.undecided (by decide) failure.foreign

theorem Dialogue.Sound.send (h : dialogue.Sound received) (reply : Reply)
    (answer : Option Interruption) : (dialogue.send waitMs reply answer).Sound received := by
  cases answer with
  | none => exact ⟨h.initialized, h.attested⟩
  | some interruption => exact h.attested.interrupted interruption

theorem Dialogue.Sound.handle (h : dialogue.Sound received) (message : Message)
    (answer : Option Interruption) :
    (dialogue.handle waitMs message answer).Sound (received ++ [message]) := by
  have hinit (hnot : ¬ (message.type = "ipc_call" ∧ message.command = "tunnel_init")) :
      message.tunnelInit? = none := if_neg hnot
  unfold Dialogue.handle
  dsimp only
  split
  · -- a decline
    rename_i hdecline
    have hmessage := hinit (by rw [hdecline.1]; simp)
    refine ⟨fun hallow => ?_, fun _ => ⟨message, by simp, hdecline⟩, h.attested.append hmessage⟩
    simp only [ProbeResult.update] at hallow
    split at hallow <;> cases hallow
  split
  · rename_i hpost
    have hmessage := hinit (by rw [hpost.1]; simp)
    have hattested := h.attested.append hmessage
    split
    · exact hattested.undecided (by decide) (by decide)
    rename_i hready
    split
    · exact hattested.undecided (by decide) (by decide)
    · obtain ⟨hinitialized, hcid⟩ := not_or.mp hready
      refine ⟨fun _ => ⟨received, message, rfl, ⟨hpost.1, hpost.2, hcid⟩,
        h.initialized (by simpa using hinitialized)⟩, fun hrisk => ?_, hattested⟩
      simp [ProbeResult.eligibility, ProbeResult.update, Verdict.classify_text] at hrisk
  split
  · rename_i hcall
    split
    · rename_i hinvalid
      have hmessage : message.tunnelInit? = none := (if_pos hcall).trans hinvalid
      exact (h.attested.append hmessage).undecided (by decide) (by decide)
    · rename_i ip hvalid
      have hmessage : message.tunnelInit? = some ip := (if_pos hcall).trans hvalid
      refine Dialogue.Sound.send
        ⟨fun _ => ⟨message, by simp, by rw [hmessage]; rfl⟩, fun _ => ?_⟩ _ _
      refine ⟨ip, ?_, rfl⟩
      rw [List.filterMap_append, List.filterMap_cons_some hmessage]
      simp
  · rename_i hnot
    have hsound := h.append (hinit hnot)
    split
    · exact hsound.send _ _
    split
    · exact hsound.send _ _
    · exact hsound

theorem Dialogue.Sound.turn (h : dialogue.Sound received) (round : Round) :
    (dialogue.turn loads waitMs round).Sound (received ++ (round.message? loads).toList) := by
  obtain ⟨timeLeft, arrival, answer⟩ := round
  cases timeLeft with
  | false =>
    simp only [Dialogue.turn, Round.message?, Option.toList_none, List.append_nil]
    exact h.attested.undecided (by decide) (strip_timeoutReason waitMs)
  | true =>
    cases arrival with
    | interrupted interruption =>
      simp only [Dialogue.turn, Round.message?, Option.toList_none, List.append_nil]
      exact h.attested.interrupted interruption
    | frame opcode payload =>
      unfold Dialogue.turn Round.message?
      simp only [Bool.true_eq_false, if_false]
      split
      · rename_i hopcode
        cases hopcode
      · rename_i hopcode
        cases hopcode
        simp only [Option.toList_none, List.append_nil]
        exact h.attested.undecided (by decide) (by decide)
      · rename_i hopcode
        cases hopcode
        simp only [Option.toList_none, List.append_nil]
        exact h.send _ _
      · rename_i hopcode
        cases hopcode
        cases hloads : loads payload with
        | undecodable =>
          simp only [hloads, Option.toList_none, List.append_nil]
          exact h
        | raises failure =>
          simp only [hloads, Option.toList_none, List.append_nil]
          exact h.attested.interrupted (.failure failure)
        | value value =>
          cases value with
          | dict fields str =>
            simp only [hloads]
            exact h.handle ⟨fields⟩ answer
          | _ =>
            simp only [hloads, Option.toList_none, List.append_nil]
            exact h.attested.interrupted _
      · rename_i hno hother
        split
        · rename_i hone
          exact absurd (Arrival.frame.inj (hother.symm.trans hone)).1 hno
        · simp only [Option.toList_none, List.append_nil]
          exact h

theorem Dialogue.Sound.run (h : dialogue.Sound received) {rounds : List Round}
    {result : ProbeResult} (hrun : dialogue.run loads waitMs rounds = some result) :
    result.Sound (received ++ dialogue.received loads waitMs rounds) := by
  induction rounds generalizing dialogue received with
  | nil => cases hrun
  | cons round rest ih =>
    have hturn : (dialogue.turn loads waitMs round).Sound _ := h.turn round
    unfold Dialogue.run at hrun
    unfold Dialogue.received
    cases hnext : dialogue.turn loads waitMs round with
    | next dialogue' =>
      rw [hnext] at hrun hturn
      rw [← List.append_assoc]
      exact ih hturn hrun
    | left result' =>
      rw [hnext] at hrun hturn
      obtain rfl := Option.some.inj hrun
      rw [List.append_nil]
      exact hturn

/-- A probe allows a proxy only after a valid `tunnel_init` and then a `cid_set` with a cid, sees a
risk only after a decline, and trusts no address but that of the last valid `tunnel_init`. -/
theorem probeEarnappProxy_sound {opening : Option Interruption} {rounds : List Round}
    {result : ProbeResult} (h : probeEarnappProxy loads waitMs opening rounds = some result) :
    (result.eligibility = .allow ↔ result.verdict = .cidSet) ∧
      result.Sound (probeReceived loads waitMs opening rounds) := by
  refine ⟨?_, ?_⟩
  · unfold ProbeResult.eligibility
    rw [Verdict.classify_text]
    cases result.verdict <;> simp
    all_goals split <;> simp
  · have hfresh (result : ProbeResult) (htrusted : result.egressTrusted = false) :
        result.Attested [] := by
      intro h
      rw [htrusted] at h
      cases h
    cases opening with
    | some interruption =>
      obtain rfl := Option.some.inj h
      exact (hfresh {} rfl).interrupted interruption
    | none =>
      have hstart : ({} : Dialogue).Sound [] := ⟨by simp, hfresh {} rfl⟩
      exact hstart.run h

end Run

/-! ## A probe -/

namespace Scenario

/-- The bytes of an ASCII text. -/
def bytes (text : String) : List UInt8 := text.toList.map Char.toUInt8

def tunnelInit : String :=
  "\x7b\"type\":\"ipc_call\",\"cmd\":\"tunnel_init\"," ++
    "\"msg\":\x7b\"ext_ip\":\" 2001:DB8::7 \"\x7d\x7d"

def tunnelInitDone : String := "\x7b\"type\":\"ipc_call\",\"cmd\":\"tunnel_init_done\"\x7d"

def cidSet : String :=
  "\x7b\"type\":\"ipc_post\",\"cmd\":\"cid_set\",\"msg\":\x7b\"cid\":\"c-1\"\x7d\x7d"

/-- `json.loads` on the payloads of the dialogue; the other one is no JSON. -/
def dialogueLoads (payload : List UInt8) : Decoded :=
  if payload = bytes tunnelInit then
    .value (.dict [("type", .text "ipc_call"), ("cmd", .text "tunnel_init"),
        ("msg", .dict [("ext_ip", .text " 2001:DB8::7 ")] "\x7b'ext_ip': ' 2001:DB8::7 '\x7d")]
      ("\x7b'type': 'ipc_call', 'cmd': 'tunnel_init', 'msg': " ++
        "\x7b'ext_ip': ' 2001:DB8::7 '\x7d\x7d"))
  else if payload = bytes tunnelInitDone then
    .value (.dict [("type", .text "ipc_call"), ("cmd", .text "tunnel_init_done")]
      "\x7b'type': 'ipc_call', 'cmd': 'tunnel_init_done'\x7d")
  else if payload = bytes cidSet then
    .value (.dict [("type", .text "ipc_post"), ("cmd", .text "cid_set"),
        ("msg", .dict [("cid", .text "c-1")] "\x7b'cid': 'c-1'\x7d")]
      "\x7b'type': 'ipc_post', 'cmd': 'cid_set', 'msg': \x7b'cid': 'c-1'\x7d\x7d")
  else .undecodable

def dialogueRounds : List Round :=
  [.frame 1 (bytes tunnelInit), .frame 9 [7, 7], .frame 1 (bytes "no JSON"),
    .frame 1 (bytes tunnelInitDone), .frame 1 (bytes cidSet)].map fun arrival =>
      { timeLeft := true, arrival := arrival }

end Scenario

open Scenario in
theorem probeEarnappProxy_sound_dialogue :
    ({ verdict := .cidSet, reason := "c-1", exitIp := "2001:db8::7", egressTrusted := true } :
      ProbeResult).Sound (probeReceived dialogueLoads 18000 none dialogueRounds) := by
  have hprobe : probeEarnappProxy dialogueLoads 18000 none dialogueRounds =
      some {
        verdict := .cidSet, reason := "c-1", exitIp := "2001:db8::7", egressTrusted := true } := by
    decide +kernel
  exact (probeEarnappProxy_sound hprobe).2

end EarnProxy
