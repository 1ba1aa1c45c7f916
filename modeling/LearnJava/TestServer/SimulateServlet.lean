import LearnJava.Java.LineStream

/-!
# `SimulateServlet` and `SimulateClient`

The two ends of one connection of `TestServer`: `sendRequest` of a client, and `dispatchRequest`,
which a thread of the server's pool calls for the accepted socket.  A step is one call that goes to
the network, with the code up to the next such call.  Each of these calls may fail with an
`IOException`.  A flush that fails may have sent a first part of its bytes.
-/

namespace LearnJava

namespace TestServer

/-- `sendStrs` of `SimulateClient` -/
def sendStrs : List String :=
  ["访问门户页面\n", "请求js\n", "request css file\n", "login\n", "注销\n", "download file\n"]

/-- `backStrs` of `SimulateServlet` -/
def backStrs : List String :=
  ["断剑重铸之日,骑士归来之时\n", "你好\n", "hello!\n", "welcome to china!\n", "我们一起玩吧!\n",
    "我的朋友很少\n", "is that is true?\n"]

/-- Where `sendRequest` is. -/
inductive ClientPhase
  /-- before `new Socket("127.0.0.1", 8656)` -/
  | new
  /-- `bufferedWriter.flush()` -/
  | writing
  /-- `bufferedReader.readLine()` -/
  | reading
  /-- the `close()` of the `try` statement, with whether an exception is pending -/
  | closing (thrown : Bool)
  | ended (thrown : Bool)
  deriving DecidableEq, Repr

/-- What the `finally` block of `dispatchRequest` closes. -/
inductive Resource
  | bufferedReader
  | bufferedWriter
  | socket
  deriving DecidableEq, Repr

/-- Where the server's task for a connection is. -/
inductive TaskPhase
  /-- no thread has begun with it -/
  | waiting
  /-- `SimulateServlet.getInstance()` -/
  | starting
  /-- `socket.getInputStream()` -/
  | opening
  /-- `bufferedReader.readLine()` -/
  | reading
  /-- `socket.getOutputStream()` -/
  | answering
  /-- `bufferedWriter.flush()` -/
  | writing
  /-- the `finally` block, with what it has yet to close -/
  | closing (first : Resource) (rest : List Resource) (thrown : Bool)
  | finished (thrown : Bool)
  deriving DecidableEq, Repr

/-- A thread is at the task. -/
def TaskPhase.IsActive : TaskPhase → Prop
  | .waiting | .finished _ => False
  | _ => True

instance : DecidablePred TaskPhase.IsActive := fun phase => by
  cases phase <;> unfold TaskPhase.IsActive <;> infer_instance

/-- The request has not been answered yet. -/
def TaskPhase.IsSilent : TaskPhase → Prop
  | .closing _ _ _ | .finished _ => False
  | _ => True

/-- A connection with its two ends: what has been sent either way, the line that the server has
printed and the one that the client has. -/
structure Connection where
  client : ClientPhase
  task : TaskPhase
  request : LineStream
  response : LineStream
  serverPrinted : Option (Option (List Byte))
  clientPrinted : Option (Option (List Byte))
  deriving DecidableEq, Repr

/-- Before the client connects. -/
def Connection.initial : Connection := ⟨.new, .waiting, .new, .new, none, none⟩

/-! ## The client -/

/-- A step of the client: the request is chosen at random. -/
inductive ClientAct
  | send (str : String)
  | sendFails (str : String) (sent : ℕ)
  | read
  | close
  | fail
  deriving DecidableEq, Repr

/-- The call of the step fails. -/
def ClientAct.IsFailure : ClientAct → Prop
  | .sendFails _ _ | .fail => True
  | _ => False

/-- `sendRequest()` -/
def Connection.sendRequest (x : Connection) : ClientAct → Option Connection
  | .send str =>
    if str ∈ sendStrs then
      match x.client with
      | .writing => some { x with client := .reading, request := x.request.send (getBytes str) }
      | _ => none
    else none
  | .sendFails str sent =>
    if str ∈ sendStrs then
      match x.client with
      | .writing =>
        some { x with
          client := .closing true, request := x.request.send ((getBytes str).take sent) }
      | _ => none
    else none
  | .read =>
    match x.client, x.response.readLine with
    | .reading, some readStr =>
      some { x with client := .closing false, clientPrinted := some readStr }
    | _, _ => none
  | .close =>
    match x.client with
    | .closing thrown => some { x with client := .ended thrown, request := x.request.close }
    | _ => none
  | .fail =>
    match x.client with
    | .new => some { x with client := .ended true }
    | .reading => some { x with client := .closing true }
    | .closing _ => some { x with client := .ended true }
    | _ => none

/-! ## The server's task -/

/-- A step of the task: `getInstance` may find `null`, since the field `instance` is not `volatile`,
and the answer is chosen at random. -/
inductive TaskAct
  | getInstance (isNull : Bool)
  | go
  | answer (str : String)
  | answerFails (str : String) (sent : ℕ)
  | fail
  deriving DecidableEq, Repr

/-- The call of the step fails. -/
def TaskAct.IsFailure : TaskAct → Prop
  | .answerFails _ _ | .fail => True
  | _ => False

/-- The `finally` block after it has tried to close something. -/
def TaskPhase.afterClose (thrown : Bool) : List Resource → TaskPhase
  | [] => .finished thrown
  | first :: rest => .closing first rest thrown

/-- `DispatchRequestRunnable.run()`, with `dispatchRequest(socket)`.  Each of the streams closes the
socket when it is closed. -/
def Connection.dispatchRequest (x : Connection) : TaskAct → Option Connection
  | .getInstance isNull =>
    match x.task with
    | .starting => some { x with task := if isNull then .finished true else .opening }
    | _ => none
  | .go =>
    match x.task with
    | .opening => some { x with task := .reading }
    | .reading =>
      match x.request.readLine with
      | some readStr => some { x with task := .answering, serverPrinted := some readStr }
      | none => none
    | .answering => some { x with task := .writing }
    | .closing _ rest thrown =>
      some { x with task := .afterClose thrown rest, response := x.response.close }
    | _ => none
  | .answer str =>
    if str ∈ backStrs then
      match x.task with
      | .writing =>
        some { x with
          task := .closing .bufferedReader [.bufferedWriter, .socket] false
          response := x.response.send (getBytes str) }
      | _ => none
    else none
  | .answerFails str sent =>
    if str ∈ backStrs then
      match x.task with
      | .writing =>
        some { x with
          task := .closing .bufferedReader [.bufferedWriter, .socket] true
          response := x.response.send ((getBytes str).take sent) }
      | _ => none
    else none
  | .fail =>
    match x.task with
    | .opening => some { x with task := .closing .socket [] true }
    | .reading | .answering => some { x with task := .closing .bufferedReader [.socket] true }
    | .closing _ rest thrown => some { x with task := .afterClose thrown rest }
    | _ => none

/-! ## What a step does -/

variable {x x' : Connection}

/-- The effects of the client's steps. -/
inductive ClientEffect (x : Connection) : ClientAct → Connection → Prop
  | sent {str : String} (hphase : x.client = .writing) (h : str ∈ sendStrs) :
      ClientEffect x (.send str)
        { x with client := .reading, request := x.request.send (getBytes str) }
  | sentPart {str : String} {n : ℕ} (hphase : x.client = .writing) (h : str ∈ sendStrs) :
      ClientEffect x (.sendFails str n)
        { x with client := .closing true, request := x.request.send ((getBytes str).take n) }
  | read {readStr : Option (List Byte)} (hphase : x.client = .reading)
      (h : x.response.readLine = some readStr) :
      ClientEffect x .read { x with client := .closing false, clientPrinted := some readStr }
  | closed {thrown : Bool} (hphase : x.client = .closing thrown) :
      ClientEffect x .close { x with client := .ended thrown, request := x.request.close }
  | refused (hphase : x.client = .new) : ClientEffect x .fail { x with client := .ended true }
  | failed (hphase : x.client = .reading) : ClientEffect x .fail { x with client := .closing true }
  | notClosed {thrown : Bool} (hphase : x.client = .closing thrown) :
      ClientEffect x .fail { x with client := .ended true }

/-- Every step of the client has one of the effects. -/
lemma sendRequest_cases {a : ClientAct} (h : x.sendRequest a = some x') : ClientEffect x a x' := by
  cases a with
  | send str =>
      rw [Connection.sendRequest] at h
      by_cases hstr : str ∈ sendStrs
      case neg => simp [hstr] at h
      rw [if_pos hstr] at h
      split at h <;> rename_i hphase
      · obtain rfl := Option.some.inj h
        exact .sent hphase hstr
      · cases h
  | sendFails str n =>
      rw [Connection.sendRequest] at h
      by_cases hstr : str ∈ sendStrs
      case neg => simp [hstr] at h
      rw [if_pos hstr] at h
      split at h <;> rename_i hphase
      · obtain rfl := Option.some.inj h
        exact .sentPart hphase hstr
      · cases h
  | read =>
      rw [Connection.sendRequest] at h
      split at h
      · rename_i hphase hread
        obtain rfl := Option.some.inj h
        exact .read hphase hread
      · cases h
  | close =>
      rw [Connection.sendRequest] at h
      split at h <;> rename_i hphase
      · obtain rfl := Option.some.inj h
        exact .closed hphase
      · cases h
  | fail =>
      rw [Connection.sendRequest] at h
      split at h <;> rename_i hphase
      · obtain rfl := Option.some.inj h
        exact .refused hphase
      · obtain rfl := Option.some.inj h
        exact .failed hphase
      · obtain rfl := Option.some.inj h
        exact .notClosed hphase
      · cases h

/-- The effects of the task's steps. -/
inductive TaskEffect (x : Connection) : TaskAct → Connection → Prop
  | noInstance (hphase : x.task = .starting) :
      TaskEffect x (.getInstance true) { x with task := .finished true }
  | hasInstance (hphase : x.task = .starting) :
      TaskEffect x (.getInstance false) { x with task := .opening }
  | opened (hphase : x.task = .opening) : TaskEffect x .go { x with task := .reading }
  | read {readStr : Option (List Byte)} (hphase : x.task = .reading)
      (h : x.request.readLine = some readStr) :
      TaskEffect x .go { x with task := .answering, serverPrinted := some readStr }
  | wrote (hphase : x.task = .answering) : TaskEffect x .go { x with task := .writing }
  | answered {str : String} (hphase : x.task = .writing) (h : str ∈ backStrs) :
      TaskEffect x (.answer str)
        { x with
          task := .closing .bufferedReader [.bufferedWriter, .socket] false
          response := x.response.send (getBytes str) }
  | answeredPart {str : String} {n : ℕ} (hphase : x.task = .writing) (h : str ∈ backStrs) :
      TaskEffect x (.answerFails str n)
        { x with
          task := .closing .bufferedReader [.bufferedWriter, .socket] true
          response := x.response.send ((getBytes str).take n) }
  | failed {first : Resource} {rest : List Resource}
      (hphase : x.task = .opening ∨ x.task = .reading ∨ x.task = .answering)
      (hopened : first = .socket ∧ rest = [] ∨ first = .bufferedReader ∧ rest = [.socket]) :
      TaskEffect x .fail { x with task := .closing first rest true }
  | closed {first : Resource} {rest : List Resource} {thrown : Bool}
      (hphase : x.task = .closing first rest thrown) :
      TaskEffect x .go { x with task := .afterClose thrown rest, response := x.response.close }
  | notClosed {first : Resource} {rest : List Resource} {thrown : Bool}
      (hphase : x.task = .closing first rest thrown) :
      TaskEffect x .fail { x with task := .afterClose thrown rest }

/-- Every step of the task has one of the effects. -/
lemma dispatchRequest_cases {a : TaskAct} (h : x.dispatchRequest a = some x') :
    TaskEffect x a x' := by
  cases a with
  | getInstance isNull =>
      rw [Connection.dispatchRequest] at h
      split at h <;> rename_i hphase
      · obtain rfl := Option.some.inj h
        cases isNull with
        | false => exact .hasInstance hphase
        | true => exact .noInstance hphase
      · cases h
  | go =>
      rw [Connection.dispatchRequest] at h
      split at h <;> rename_i hphase
      · obtain rfl := Option.some.inj h
        exact .opened hphase
      · split at h <;> rename_i hread
        · obtain rfl := Option.some.inj h
          exact .read hphase hread
        · cases h
      · obtain rfl := Option.some.inj h
        exact .wrote hphase
      · obtain rfl := Option.some.inj h
        exact .closed hphase
      · cases h
  | answer str =>
      rw [Connection.dispatchRequest] at h
      by_cases hstr : str ∈ backStrs
      case neg => simp [hstr] at h
      rw [if_pos hstr] at h
      split at h <;> rename_i hphase
      · obtain rfl := Option.some.inj h
        exact .answered hphase hstr
      · cases h
  | answerFails str n =>
      rw [Connection.dispatchRequest] at h
      by_cases hstr : str ∈ backStrs
      case neg => simp [hstr] at h
      rw [if_pos hstr] at h
      split at h <;> rename_i hphase
      · obtain rfl := Option.some.inj h
        exact .answeredPart hphase hstr
      · cases h
  | fail =>
      rw [Connection.dispatchRequest] at h
      split at h <;> rename_i hphase
      · obtain rfl := Option.some.inj h
        exact .failed (.inl hphase) (.inl ⟨rfl, rfl⟩)
      · obtain rfl := Option.some.inj h
        exact .failed (.inr (.inl hphase)) (.inr ⟨rfl, rfl⟩)
      · obtain rfl := Option.some.inj h
        exact .failed (.inr (.inr hphase)) (.inr ⟨rfl, rfl⟩)
      · obtain rfl := Option.some.inj h
        exact .notClosed hphase
      · cases h

/-- The client leaves the task and the response as they are. -/
lemma ClientEffect.frame {a : ClientAct} (h : ClientEffect x a x') :
    x'.task = x.task ∧ x'.response = x.response := by
  cases h <;> exact ⟨rfl, rfl⟩

/-- The task leaves the client and the request as they are. -/
lemma TaskEffect.frame {a : TaskAct} (h : TaskEffect x a x') :
    x'.client = x.client ∧ x'.request = x.request := by
  cases h <;> exact ⟨rfl, rfl⟩

lemma ClientEffect.client_ne {a : ClientAct} (h : ClientEffect x a x') : x'.client ≠ .new := by
  cases h <;> simp

lemma TaskEffect.task_ne {a : TaskAct} (h : TaskEffect x a x') : x'.task ≠ .waiting := by
  cases h with
  | @closed _ rest | @notClosed _ rest => cases rest <;> simp [TaskPhase.afterClose]
  | _ => simp

/-! ## What the two ends have of each other -/

/-- Every request is a line. -/
lemma isLine_of_mem_sendStrs {str : String} (h : str ∈ sendStrs) : LineStream.IsLine str := by
  revert str
  simp only [sendStrs, List.forall_mem_cons]
  exact ⟨⟨"访问门户页面", rfl, by decide +kernel⟩, ⟨"请求js", rfl, by decide +kernel⟩,
    ⟨"request css file", rfl, by decide +kernel⟩, ⟨"login", rfl, by decide +kernel⟩,
    ⟨"注销", rfl, by decide +kernel⟩, ⟨"download file", rfl, by decide +kernel⟩,
    List.forall_mem_nil _⟩

/-- Every answer is a line. -/
lemma isLine_of_mem_backStrs {str : String} (h : str ∈ backStrs) : LineStream.IsLine str := by
  revert str
  simp only [backStrs, List.forall_mem_cons]
  exact ⟨⟨"断剑重铸之日,骑士归来之时", rfl, by decide +kernel⟩, ⟨"你好", rfl, by decide +kernel⟩,
    ⟨"hello!", rfl, by decide +kernel⟩, ⟨"welcome to china!", rfl, by decide +kernel⟩,
    ⟨"我们一起玩吧!", rfl, by decide +kernel⟩, ⟨"我的朋友很少", rfl, by decide +kernel⟩,
    ⟨"is that is true?", rfl, by decide +kernel⟩, List.forall_mem_nil _⟩

/-- A first part of one of the strings. -/
def IsPartOf (strs : List String) (bytes : List Byte) : Prop :=
  ∃ str ∈ strs, bytes <+: getBytes str

lemma isPartOf_nil {strs : List String} (h : strs ≠ []) : IsPartOf strs [] := by
  obtain ⟨str, hstr⟩ := List.exists_mem_of_ne_nil strs h
  exact ⟨str, hstr, List.nil_prefix⟩

/-- What holds of a connection, however the calls of its two ends turn out. -/
structure Connection.Consistent (x : Connection) : Prop where
  request : IsPartOf sendStrs x.request.sent
  response : IsPartOf backStrs x.response.sent
  unsent : x.client = .new ∨ x.client = .writing → x.request = .new
  silent : x.task.IsSilent → x.response = .new
  serverPrinted : ∀ r, x.serverPrinted = some r → x.request.readLine = some r
  clientPrinted : ∀ r, x.clientPrinted = some r → x.response.readLine = some r

namespace Connection

lemma consistent_initial : initial.Consistent := by
  refine ⟨isPartOf_nil (by simp [sendStrs]), isPartOf_nil (by simp [backStrs]), fun _ => rfl,
    fun _ => rfl, ?_, ?_⟩ <;>
  · intro r h
    cases h

/-- Nothing has been read from a stream that is new. -/
lemma printed_eq_none {printed : Option (Option (List Byte))} {stream : LineStream}
    (hnew : stream = .new) (h : ∀ r, printed = some r → stream.readLine = some r) :
    printed = none := by
  by_contra hsome
  obtain ⟨r, hr⟩ := Option.ne_none_iff_exists'.mp hsome
  have hread := h r hr
  rw [hnew, LineStream.readLine_new] at hread
  cases hread

/-- **The client keeps what holds of its connection.** -/
lemma Consistent.sendRequest {a : ClientAct} (hx : x.Consistent) (h : x.sendRequest a = some x') :
    x'.Consistent := by
  obtain ⟨hrequest, hresponse, hunsent, hsilent, hserver, hclient⟩ := hx
  cases sendRequest_cases h with
  | @sent str hphase hstr =>
      have hnew := hunsent (.inr hphase)
      refine ⟨⟨str, hstr, by simp [hnew, LineStream.new]⟩, hresponse, by simp, hsilent, ?_, hclient⟩
      simp [printed_eq_none hnew hserver]
  | @sentPart str n hphase hstr =>
      have hnew := hunsent (.inr hphase)
      refine ⟨⟨str, hstr, ?_⟩, hresponse, by simp, hsilent, ?_, hclient⟩
      · simpa [hnew, LineStream.new] using List.take_prefix n _
      · simp [printed_eq_none hnew hserver]
  | @read readStr hphase hread =>
      refine ⟨hrequest, hresponse, by simp, hsilent, hserver, fun r hr => ?_⟩
      obtain rfl := Option.some.inj hr
      exact hread
  | closed hphase =>
      exact ⟨hrequest, hresponse, by simp, hsilent,
        fun r hr => LineStream.readLine_close (hserver r hr), hclient⟩
  | refused | failed | notClosed =>
      exact ⟨hrequest, hresponse, by simp, hsilent, hserver, hclient⟩

/-- **The task keeps what holds of its connection.** -/
lemma Consistent.dispatchRequest {a : TaskAct} (hx : x.Consistent)
    (h : x.dispatchRequest a = some x') : x'.Consistent := by
  obtain ⟨hrequest, hresponse, hunsent, hsilent, hserver, hclient⟩ := hx
  cases dispatchRequest_cases h with
  | noInstance hphase | hasInstance hphase | opened hphase | wrote hphase =>
      have hnew := hsilent (by simp [hphase, TaskPhase.IsSilent])
      exact ⟨hrequest, hresponse, hunsent, fun _ => hnew, hserver, hclient⟩
  | read hphase hread =>
      have hnew := hsilent (by simp [hphase, TaskPhase.IsSilent])
      refine ⟨hrequest, hresponse, hunsent, fun _ => hnew, fun r hr => ?_, hclient⟩
      obtain rfl := Option.some.inj hr
      exact hread
  | @answered str hphase hstr =>
      have hnew := hsilent (by simp [hphase, TaskPhase.IsSilent])
      refine ⟨hrequest, ⟨str, hstr, by simp [hnew, LineStream.new]⟩, hunsent,
        fun hsilent => hsilent.elim, hserver, ?_⟩
      simp [printed_eq_none hnew hclient]
  | @answeredPart str n hphase hstr =>
      have hnew := hsilent (by simp [hphase, TaskPhase.IsSilent])
      refine ⟨hrequest, ⟨str, hstr, ?_⟩, hunsent, fun hsilent => hsilent.elim, hserver, ?_⟩
      · simpa [hnew, LineStream.new] using List.take_prefix n _
      · simp [printed_eq_none hnew hclient]
  | failed => exact ⟨hrequest, hresponse, hunsent, fun hsilent => hsilent.elim, hserver, hclient⟩
  | @closed _ rest =>
      refine ⟨hrequest, hresponse, hunsent, fun hsilent => ?_, hserver,
        fun r hr => LineStream.readLine_close (hclient r hr)⟩
      cases rest <;> exact hsilent.elim
  | @notClosed _ rest =>
      refine ⟨hrequest, hresponse, hunsent, fun hsilent => ?_, hserver, hclient⟩
      cases rest <;> exact hsilent.elim

/-! ### Connections without failures -/

/-- The request has been sent as a whole, if the client has come to its response. -/
def SendsAll (x : Connection) : Prop :=
  x.client = .new ∨ x.client = .writing ∨ ∃ str ∈ sendStrs, x.request.sent = getBytes str

/-- The answer has been sent as a whole, if the task has come to its `finally` block.  It has not
come there without an instance of the servlet. -/
def AnswersAll (x : Connection) : Prop :=
  x.task.IsSilent ∨ (∃ str ∈ backStrs, x.response.sent = getBytes str) ∨
    x.task = .finished true ∧ x.response = .new

/-- The socket is closed by the end of the `finally` block. -/
def ClosesSocket (x : Connection) : Prop :=
  x.response.closed = true ∨ match x.task with
    | .closing first rest _ => (first :: rest).getLast? = some .socket
    | .finished _ => False
    | _ => True

lemma SendsAll.sendRequest {a : ClientAct} (hx : x.SendsAll) (hconsistent : x.Consistent)
    (h : x.sendRequest a = some x') (ha : ¬a.IsFailure) : x'.SendsAll := by
  cases sendRequest_cases h with
  | @sent str hphase hstr =>
      have hnew := hconsistent.unsent (.inr hphase)
      exact .inr (.inr ⟨str, hstr, by simp [hnew, LineStream.new]⟩)
  | read hphase | closed hphase =>
      obtain hnew | hwriting | hsent := hx
      · cases hphase.symm.trans hnew
      · cases hphase.symm.trans hwriting
      · exact .inr (.inr hsent)
  | sentPart | refused | failed | notClosed => exact absurd trivial ha

lemma AnswersAll.dispatchRequest {a : TaskAct} (hx : x.AnswersAll) (hconsistent : x.Consistent)
    (h : x.dispatchRequest a = some x') (ha : ¬a.IsFailure) : x'.AnswersAll := by
  cases dispatchRequest_cases h with
  | noInstance hphase =>
      exact .inr (.inr ⟨rfl, hconsistent.silent (by simp [hphase, TaskPhase.IsSilent])⟩)
  | hasInstance | opened | read | wrote => exact .inl trivial
  | @answered str hphase hstr =>
      have hnew := hconsistent.silent (by simp [hphase, TaskPhase.IsSilent])
      exact .inr (.inl ⟨str, hstr, by simp [hnew, LineStream.new]⟩)
  | closed hphase =>
      obtain hsilent | hsent | ⟨hfinished, -⟩ := hx
      · simp [hphase, TaskPhase.IsSilent] at hsilent
      · exact .inr (.inl hsent)
      · cases hphase.symm.trans hfinished
  | answeredPart | failed | notClosed => exact absurd trivial ha

/-- It is closed unless the task finds no instance, or the `close()` of the socket itself fails. -/
lemma ClosesSocket.dispatchRequest {a : TaskAct} (hx : x.ClosesSocket)
    (h : x.dispatchRequest a = some x') (hinstance : a ≠ .getInstance true)
    (hclose : a = .fail → ∀ thrown, x.task ≠ .closing .socket [] thrown) : x'.ClosesSocket := by
  cases dispatchRequest_cases h with
  | noInstance => exact absurd rfl hinstance
  | hasInstance | opened | read | wrote => exact .inr trivial
  | answered | answeredPart => exact .inr rfl
  | failed _ hopened => obtain ⟨rfl, rfl⟩ | ⟨rfl, rfl⟩ := hopened <;> exact .inr rfl
  | closed => exact .inl rfl
  | @notClosed first rest thrown hphase =>
      obtain hclosed | hlast := hx
      · exact .inl hclosed
      · rw [hphase] at hlast
        cases rest with
        | nil =>
            obtain rfl : first = .socket := by simpa using hlast
            exact absurd hphase (hclose rfl thrown)
        | cons second rest => exact .inr (by simpa [TaskPhase.afterClose] using hlast)

/-- **The client prints a whole answer**, if no call of the task fails. -/
lemma AnswersAll.clientPrinted (hx : x.AnswersAll) (hconsistent : x.Consistent)
    {r : Option (List Byte)} (hr : x.clientPrinted = some r) :
    ∃ line, r = some line ∧ ∀ malformed, newString malformed line ++ "\n" ∈ backStrs := by
  have hread := hconsistent.clientPrinted r hr
  have hsent : ∃ str ∈ backStrs, x.response.sent = getBytes str := by
    have hnotNew : x.response ≠ .new := fun hnew => by simp [hnew] at hread
    obtain hsilent | hsent | ⟨-, hnew⟩ := hx
    · exact absurd (hconsistent.silent hsilent) hnotNew
    · exact hsent
    · exact absurd hnew hnotNew
  obtain ⟨str, hstr, hsent⟩ := hsent
  obtain ⟨line, hline, htext⟩ := (isLine_of_mem_backStrs hstr).readLine hsent
  exact ⟨line, Option.some.inj (hread.symm.trans hline),
    fun malformed => (htext malformed).symm ▸ hstr⟩

/-- **The server prints a whole request**, if no call of the client fails. -/
lemma SendsAll.serverPrinted (hx : x.SendsAll) (hconsistent : x.Consistent)
    {r : Option (List Byte)} (hr : x.serverPrinted = some r) :
    ∃ line, r = some line ∧ ∀ malformed, newString malformed line ++ "\n" ∈ sendStrs := by
  have hread := hconsistent.serverPrinted r hr
  have hsent : ∃ str ∈ sendStrs, x.request.sent = getBytes str := by
    have hnotNew : x.request ≠ .new := fun hnew => by simp [hnew] at hread
    obtain hphase | hphase | hsent := hx
    · exact absurd (hconsistent.unsent (.inl hphase)) hnotNew
    · exact absurd (hconsistent.unsent (.inr hphase)) hnotNew
    · exact hsent
  obtain ⟨str, hstr, hsent⟩ := hsent
  obtain ⟨line, hline, htext⟩ := (isLine_of_mem_sendStrs hstr).readLine hsent
  exact ⟨line, Option.some.inj (hread.symm.trans hline),
    fun malformed => (htext malformed).symm ▸ hstr⟩

end Connection

end TestServer

end LearnJava
