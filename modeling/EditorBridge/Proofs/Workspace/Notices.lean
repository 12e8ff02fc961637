import EditorBridge.Practice.Server
import EditorBridge.Proofs.Console.Driver
import EditorBridge.Proofs.Json.Members
import EditorBridge.Proofs.Json.RoundTrip
import EditorBridge.Proofs.Workspace.Counting

/-!
# Notices on the wire

What a server is told about the versions of documents. A server knows a document by its URI, so the
messages of a workspace are read here as a server reads them (`Notice.ofJson?`), and what comes of a
completed command is a notice about the URI of its file (`notice?_openFile`, `notice?_changeFile`).
While its channel takes messages, everything that a workspace completes and can say is written
(`live_post`, `live_sendAll`).
-/

namespace EditorBridge

theorem filterMap_toList {α β : Type} (f : α → Option β) (a : Option α) :
    a.toList.filterMap f = (a.bind f).toList := by
  cases a with
  | none => rfl
  | some a => cases form : f a <;> simp [form]

/-- What a server is told about the version of a document. -/
inductive Notice where
  | opened (uri : String) (version : Int)
  | changed (uri : String) (version : Int)
  deriving DecidableEq

/-- The document that a notice is about. -/
def Notice.uri : Notice → String
  | opened uri _ | changed uri _ => uri

/-- The notice that a description of a file is in a message without an id. -/
def Notice.of? (method : String) (file : Json) : Option Notice :=
  let uri := Practice.Server.uriOf file
  let version := (Practice.Server.versionOf file).toInt
  if method = Kind.openFile.method then some (.opened uri version)
  else if method = Kind.changeFile.method then some (.changed uri version)
  else none

/-- The notice that a message is to a server, if it is one. -/
def Notice.ofJson? (message : Json) : Option Notice :=
  (Practice.Message.ofJson? message).bind fun m =>
    match m.id, m.method with
    | none, some method => (m.params.get? "textDocument").bind (Notice.of? method)
    | _, _ => none

/-- The written message that a command becomes. -/
def Command.wire? (c : Command) : Option Json :=
  c.toMessage?.map Rpc.Outgoing.toJson

/-- The notice that a command is on the wire. -/
def Command.notice? (c : Command) : Option Notice :=
  c.wire?.bind Notice.ofJson?

theorem Practice.Message.ofJson?_notification (method : String) (params : Json) :
    ofJson? (Rpc.Notification.of method params).toJson =
      some ⟨none, some method, params, none⟩ := by
  rw [ofJson?, Rpc.Notification.toJson]
  simp [Json.members?, names, Json.lookup, Json.optional, Json.string?, Json.orNull,
    Rpc.Notification.of]

/-- A description of a file is read as it is written, whatever else it says. -/
theorem Notice.of?_ofMembers {members : List (String × Json)} {uri : String} {version : Int32}
    (method : String) (named : Json.lookup "uri" members.reverse = some (.string uri))
    (counted : Json.lookup "version" members.reverse = some (.int version.toInt)) :
    Notice.of? method (.ofMembers members) =
      if method = Kind.openFile.method then some (.opened uri version.toInt)
      else if method = Kind.changeFile.method then some (.changed uri version.toInt)
      else none := by
  rw [of?, Practice.Server.uriOf, Practice.Server.versionOf, Json.ofMembers, Json.get?, Json.get?,
    Json.lookup_sortMembers, Json.lookup_sortMembers, named, counted, Option.bind_some,
    Option.bind_some, ← Int32.toInt_toInt64, Json.int64?_int]
  rfl

theorem Command.wire?_of_notice {c : Command} (isNotice : c.kind.isQuery = false) :
    c.wire? = c.request.toParams?.map fun params =>
      (Rpc.Notification.of c.kind.method params).toJson := by
  rw [wire?, toMessage?, Option.map_map]
  simp only [isNotice, Bool.false_eq_true, if_false]
  rfl

theorem Command.notice?_of_notice {c : Command} (isNotice : c.kind.isQuery = false) :
    c.notice? = c.request.toParams?.bind fun params =>
      (params.get? "textDocument").bind (Notice.of? c.kind.method) := by
  rw [notice?, wire?_of_notice isNotice]
  cases c.request.toParams? with
  | none => rfl
  | some params =>
      rw [Option.map_some, Option.bind_some, Notice.ofJson?,
        Practice.Message.ofJson?_notification]
      rfl

theorem Command.notice?_openFile (seq : Int64) (opened : OpenedFile) :
    (⟨seq, .openFile opened⟩ : Command).notice? =
      (Uri.ofFileStrict? opened.file).map fun uri =>
        .opened uri (opened.version.getD defaultOpenVersion).toInt := by
  rw [notice?_of_notice rfl, Request.toParams?, OpenedFile.toParams?]
  cases Uri.ofFileStrict? opened.file with
  | none => rfl
  | some uri =>
      have told := @Notice.of?_ofMembers
        [("uri", .string uri), ("languageId", .string (opened.languageId.getD defaultLanguage)),
          ("version", .int (opened.version.getD defaultOpenVersion).toInt),
          ("text", .string opened.text)] uri _ Kind.openFile.method rfl rfl
      rw [if_pos rfl] at told
      exact told

theorem Command.notice?_changeFile (seq : Int64) (edit : Edit) :
    (⟨seq, .changeFile edit⟩ : Command).notice? =
      (Uri.ofFileStrict? edit.file).bind fun uri =>
        edit.range?.map fun _ =>
          .changed uri (edit.version.getD defaultChangeVersion).toInt := by
  rw [notice?_of_notice rfl, Request.toParams?, Edit.toParams?]
  cases Uri.ofFileStrict? edit.file with
  | none => rfl
  | some uri =>
      cases edit.range? with
      | none => rfl
      | some range =>
          have told := @Notice.of?_ofMembers
            [("uri", .string uri),
              ("version", .int (edit.version.getD defaultChangeVersion).toInt)]
            uri _ Kind.changeFile.method rfl rfl
          rw [if_neg (by decide), if_pos rfl] at told
          simp only [Option.bind_some, Option.map_some, Json.ofMembers, Json.get?,
            Json.lookup_sortMembers] at told ⊢
          exact told

/-! ### What is written -/

namespace Hub

variable {η : Type} {h : Hub η} {n : Nat} {w : Workspace} {sent : List Json}

/-- Whether the first channel of a workspace takes messages, and what has been written on it. -/
structure Live (h : Hub η) (n : Nat) (w : Workspace) (sent : List Json) : Prop where
  workspace : h.workspace? n = some w
  link : ∃ link, h.links[w.primary]? = some link ∧ link.channel.outlet.refusal? = none ∧
    link.channel.outlet.sent = sent

/-- What a server has been told about documents on the first channel of a workspace. -/
def notices (h : Hub η) (n : Nat) : List Notice :=
  match (h.workspace? n).bind fun w => h.channel? w.primary with
  | none => []
  | some channel => channel.outlet.sent.filterMap Notice.ofJson?

theorem Live.notices_eq (live : h.Live n w sent) : h.notices n = sent.filterMap Notice.ofJson? := by
  obtain ⟨link, found, -, written⟩ := live.link
  rw [notices, live.workspace, Option.bind_some, channel?, found, Option.map_some]
  exact congrArg _ written

theorem live_setWorkspace (live : h.Live n w sent) {v : Workspace} (same : v.primary = w.primary) :
    (h.setWorkspace n v).Live n v sent := by
  have inside : n < h.workspaces.length := (List.getElem?_eq_some_iff.mp live.workspace).1
  refine ⟨?_, ?_⟩
  · exact List.getElem?_set_self inside
  · rw [same]
    exact live.link

theorem live_prepare (live : h.Live n w sent) (c : Command) :
    h.prepare n c = (h.setWorkspace n (w.prepare c).1, (w.prepare c).2.map (w.primary, ·)) ∧
      (h.setWorkspace n (w.prepare c).1).Live n (w.prepare c).1 sent := by
  refine ⟨?_, live_setWorkspace live rfl⟩
  rw [prepare, live.workspace]
  rfl

theorem live_number (live : h.Live n w sent) (request : Request) :
    h.number n request = (h.setWorkspace n (w.number request).1, some (w.number request).2) ∧
      (h.setWorkspace n (w.number request).1).Live n (w.number request).1 sent := by
  refine ⟨?_, live_setWorkspace live rfl⟩
  rw [number, live.workspace]

theorem live_write (live : h.Live n w sent) (message : Json) :
    ∃ link, h.links[w.primary]? = some link ∧ (link.channel.write message).2 = true ∧
      (h.setChannel w.primary (link.channel.write message).1).Live n w (sent ++ [message]) := by
  obtain ⟨link, found, takes, rfl⟩ := live.link
  have wrote : link.channel.write message =
      ({ link.channel with
          outlet := { link.channel.outlet with
            sent := link.channel.outlet.sent ++ [message] } }, true) := by
    rw [Channel.write, Channel.Outlet.write, takes]
    rfl
  refine ⟨link, found, by rw [wrote], live.workspace, ?_⟩
  refine ⟨_, found_setChannel _ found, ?_, ?_⟩
  · rw [wrote]
    exact takes
  · rw [wrote]

/-- What can be said is written, as long as the channel takes messages. -/
theorem live_post (live : h.Live n w sent) (c : Command) :
    (h.post w.primary c).1.Live n w (sent ++ c.wire?.toList) ∧
      (h.post w.primary c).2 = c.wire?.isSome := by
  rw [Command.wire?]
  cases said : c.toMessage? with
  | none =>
      obtain ⟨link, found, -⟩ := live.link
      rw [post, onChannel_of_found _ _ found, Channel.post, said]
      simp only [List.foldl_nil, setChannel_same found]
      exact ⟨by simpa using live, rfl⟩
  | some message =>
      obtain ⟨link, found, taken, written⟩ := live_write live message.toJson
      rw [post_of_found found said]
      exact ⟨written, taken⟩

/-- A notice that is submitted is written like one that is posted. -/
theorem live_submit (live : h.Live n w sent) {c : Command} (isNotice : c.kind.isQuery = false) :
    (h.submit w.primary c).1.Live n w (sent ++ c.wire?.toList) := by
  have later : { h with nextTicket := h.nextTicket + 1 }.Live n w sent :=
    ⟨live.workspace, live.link⟩
  rw [Command.wire?_of_notice isNotice]
  cases said : c.request.toParams? with
  | none =>
      have mute : c.toMessage? = none := by rw [Command.toMessage?, said]; rfl
      rw [submit_of_mute mute]
      simpa using later
  | some params =>
      obtain ⟨link, found, taken, written⟩ :=
        live_write later (Rpc.Notification.of c.kind.method params).toJson
      have message : c.toMessage? = some (.notification (.of c.kind.method params)) := by
        rw [Command.toMessage?, said, Option.map_some, isNotice]
        rfl
      rw [submit, onChannel_of_found _ _ found, Channel.submit, message]
      rcases wrote : link.channel.write (Rpc.Notification.of c.kind.method params).toJson with
        ⟨channel, _ | _⟩
      · rw [wrote] at taken
        cases taken
      · rw [wrote] at written
        dsimp only
        rw [wrote]
        exact written

/-- A command that goes to a workspace, and whether the editor waits for what comes of it. -/
structure Sending where
  command : Command
  waits : Bool

/-- Sends a command through a workspace. -/
def send (h : Hub η) (n : Nat) (s : Sending) : Hub η :=
  if s.waits then (h.ask n s.command).1 else (h.tell n s.command).1

/-- Sends commands through a workspace one after the other. -/
def sendAll (h : Hub η) (n : Nat) (sendings : List Sending) : Hub η :=
  sendings.foldl (fun h s => h.send n s) h

theorem live_send (live : h.Live n w sent) {s : Sending}
    (isNotice : s.command.kind.isQuery = false) :
    (h.send n s).Live n (w.prepare s.command).1
      (sent ++ ((w.prepare s.command).2.bind Command.wire?).toList) := by
  obtain ⟨prepared, ready⟩ := live_prepare live s.command
  rw [send, ask, tell, prepared]
  cases finished : (w.prepare s.command).2 with
  | none => simpa using ready
  | some done =>
      have sameKind : done.kind = s.command.kind := (Workspace.frame_prepare finished).2
      rw [Option.map_some, Option.bind_some]
      split
      · exact live_submit ready (by rw [sameKind, isNotice])
      · exact (live_post ready done).1

/-- Commands that are sent one after the other are written as the workspace completes them. -/
theorem live_sendAll (live : h.Live n w sent) {sendings : List Sending}
    (areNotices : ∀ s ∈ sendings, s.command.kind.isQuery = false) :
    (h.sendAll n sendings).Live n (w.after (sendings.map Sending.command))
      (sent ++ (w.completed (sendings.map Sending.command)).filterMap Command.wire?) := by
  induction sendings generalizing h w sent with
  | nil => simpa [sendAll, Workspace.after, Workspace.completed, Workspace.prepareAll] using live
  | cons s sendings ih =>
      have first := live_send live (areNotices s List.mem_cons_self)
      have others := ih first fun t inside => areNotices t (List.mem_cons_of_mem _ inside)
      rw [List.append_assoc] at others
      rw [List.map_cons, Workspace.completed, Workspace.prepareAll]
      dsimp only
      rw [List.filterMap_append, filterMap_toList]
      exact others

/-- A workspace that has told its server of no file yet, on a channel that takes messages. -/
structure Awaits (h : Hub η) (n : Nat) (w : Workspace) (sent : List Json) : Prop where
  live : h.Live n w sent
  fresh : w.versions = []
  silent : sent.filterMap Notice.ofJson? = []

/-- What a server has been told then are the notices of the completed commands. -/
theorem notices_sendAll (awaits : h.Awaits n w sent) {sendings : List Sending}
    (areNotices : ∀ s ∈ sendings, s.command.kind.isQuery = false) :
    (h.sendAll n sendings).notices n =
      (w.completed (sendings.map Sending.command)).filterMap Command.notice? := by
  have live := live_sendAll awaits.live areNotices
  rw [live.notices_eq, List.filterMap_append, awaits.silent, List.nil_append,
    List.filterMap_filterMap]
  rfl

/-- A hub with one workspace that has just been started. -/
def fresh : Hub Unit :=
  ((start 1 2000).startWorkspace (fun _ => some .start) ⟨"/", "server"⟩
    ⟨"server", [], [], none⟩).1

theorem awaits_fresh : fresh.Awaits 0 (.start ⟨"/", "server"⟩ ⟨"server", [], [], none⟩ 0 1 0)
    [(Channel.greeting 1 "/").toJson] :=
  ⟨⟨rfl, _, rfl, rfl, rfl⟩, rfl, rfl⟩

end Hub

end EditorBridge
