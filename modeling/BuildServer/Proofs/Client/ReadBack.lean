import BuildServer.Client.Basic
import BuildServer.Proofs.Client.Address
import BuildServer.Proofs.Pipeline.Catalog
import BuildServer.Proofs.Pipeline.Json
import BuildServer.Proofs.Schedule.Run
import BuildServer.Proofs.Server.Target
import BuildServer.Proofs.Text.Percent
/-!
# Pipelines asked for by their names

A pipeline is created at a fixed address with its name in the body, and asked for at an address that
has the name in it. The body brings every name to the server as it is. The address does only if the
name is a segment of a path, is not resolved to another text, and is not the place of something else
beside the pipelines.

Both requests go to one segment of one directory on one server. So an address that could be used for
the first can be used for the second, unless it is too long, and the proof follows the two requests
along the same steps: through the address, to the endpoint, and back out of the reply.
-/

set_option autoImplicit false

namespace BuildServer

open WebAddress (pipelines StandsAlone ServerUrl isMark isForbiddenInPath)

/-! ## Addresses in the directory of the pipelines -/

namespace WebAddress

/-- What is not escaped in a path is in ASCII. -/
theorem ascii_of_allowed (c : Char) (h : isForbiddenInPath c = false) : c.toNat < 0x80 := by
  simp only [isForbiddenInPath, isForbiddenInFragment, isControl, Bool.or_eq_false_iff,
    decide_eq_false_iff_not] at h
  omega

/-- A segment has only plain characters once it is escaped, and is still one segment. -/
theorem plain_of_mem_escape {segment : List Char} (plain : segment.any isMark = false)
    {c : Char} (h : c ∈ Text.escape isForbiddenInPath segment) :
    Target.isPlainChar c = true ∧ c ≠ '/' := by
  rcases Text.mem_escape h with ⟨inside, allowed⟩ | ⟨b, escaped⟩
  · have ascii : ∀ i : Fin 128, isMark (Char.ofNat i) = false →
        isForbiddenInPath (Char.ofNat i) = false →
        Target.isPlainChar (Char.ofNat i) = true ∧ Char.ofNat i ≠ '/' := by decide
    have kept := ascii ⟨c.toNat, ascii_of_allowed c allowed⟩
    rw [Char.ofNat_toNat] at kept
    exact kept (isMark_of_mem plain inside) allowed
  · have octets : ∀ i : Fin 256, (Text.escapeOctet (UInt8.ofNat i)).all (fun d =>
        Target.isPlainChar d && d != '/') = true := by decide +kernel
    have octet := List.all_eq_true.mp (octets ⟨b.toNat, b.toNat_lt⟩) c
    rw [UInt8.ofNat_toNat] at octet
    simpa using octet escaped

/-- Behind the slash at its front, the path of a segment has plain characters. -/
theorem plain_path {segment : List Char} (plain : segment.any isMark = false) :
    ∀ c ∈ pipelines ++ Text.escape isForbiddenInPath segment, Target.isPlainChar c = true := by
  have fixed : pipelines.all Target.isPlainChar = true := by decide
  intro c hc
  rcases List.mem_append.mp hc with hfixed | hsegment
  · exact List.all_eq_true.mp fixed c hfixed
  · exact (plain_of_mem_escape plain hsegment).1

namespace ServerUrl

variable (url : ServerUrl) {segment : List Char} (server : Host × Option Nat)

/-- Whether the address is a target does not depend on the segment, but for its length. -/
theorem isTarget_below (plain : segment.any isMark = false) :
    Target.isTarget (url.below segment server).toText
      = (decide ((url.below segment server).toText.utf8ByteSize ≤ Target.sizeLimit)
        && Target.isServer url.scheme.toList (url.below [] server).server.toList) := by
  have scheme : url.scheme.toList.all Target.isSchemeChar = true := by
    rcases url.scheme_cases with ⟨scheme, -⟩ | ⟨scheme, -⟩ <;> rw [scheme] <;> decide
  have written : (url.below segment server).toText = String.ofList (url.scheme.toList ++
      ':' :: '/' :: '/' :: ((url.below [] server).server.toList ++
        (pipelines ++ Text.escape isForbiddenInPath segment))) := by
    apply String.toList_injective
    simp [toText, target, below, WebAddress.server]
  rw [written, pipelines, List.cons_append]
  exact Target.isTarget_address (List.all_eq_true.mp scheme) _ (plain_path plain)

theorem isReachable_below : (url.below segment server).isReachable = true := by
  rcases url.scheme_cases with ⟨scheme, -⟩ | ⟨scheme, -⟩ <;> simp [isReachable, below, scheme]

/-- A request there goes to the path of the segment. -/
theorem path_below (plain : segment.any isMark = false) :
    (Target.ofText (url.below segment server).target).path
      = pipelines ++ Text.escape isForbiddenInPath segment := by
  have written : (url.below segment server).target
      = String.ofList (pipelines ++ Text.escape isForbiddenInPath segment) := String.append_empty
  rw [written, pipelines, List.cons_append]
  exact Target.path_ofText (plain_path plain)

end ServerUrl

end WebAddress

namespace Endpoint

theorem ofSegments?_name {name : String} (notCreate : name ≠ "create") (notList : name ≠ "list") :
    ofSegments? ["api", "pipeline", name] = some (.pipeline name.toList) := by
  rw [ofSegments?]
  · rfl
  · exact fun same _ => notCreate same
  · exact fun same _ => notList same

/-- A segment in the directory of the pipelines is a name, unless something else is there. -/
theorem ofPath?_name {name : List Char} (nonempty : name ≠ []) (whole : '/' ∉ name)
    (notCreate : String.ofList name ≠ "create") (notList : String.ofList name ≠ "list") :
    ofPath? (pipelines ++ name) = some (.pipeline name) := by
  have cut : Text.pieces '/' (pipelines ++ name) = [] :: (WebAddress.directory ++ [name]) := by
    have front : pipelines ++ name = [] ++ '/' :: (pipelines ++ name).drop 1 := rfl
    rw [front, Text.pieces_append (by decide), WebAddress.pieces_pipelines whole]
  have last : ((WebAddress.directory ++ [name]).getLast? == some []) = false := by
    simpa using nonempty
  have segments := ofSegments?_name notCreate notList
  rw [String.toList_ofList] at segments
  rw [ofPath?, cut]
  dsimp only
  rw [last]
  exact segments

end Endpoint

/-! ## The two requests at the server -/

/-- A pipeline is refused, or taken into the catalog of a server that is the same otherwise. -/
theorem Server.create_cases (s : Server) (p : PipelineConfig) :
    (∃ message, s.create p = (.error (.badRequest message), s)) ∨
      ∃ catalog, s.catalog.save p = (.ok (), catalog) ∧
        s.create p = (.ok (.ofConfig p), { s with catalog }) := by
  unfold Server.create
  by_cases blank : Text.isAllBlank p.name = true
  · rw [if_pos blank]
    exact .inl ⟨_, rfl⟩
  rw [if_neg blank]
  rcases saved : s.catalog.save p with ⟨e | ⟨⟩, catalog⟩
  · rw [Catalog.save_eq_error saved]
    exact .inl ⟨_, rfl⟩
  · exact .inr ⟨catalog, rfl, rfl⟩

namespace Client

variable {target : String} {clock : Clock} {s : Server} {p : PipelineConfig}

/-- The server carries out the command that a request was made for, if that is what it reads. -/
theorem handle_request {c : Command} (command : Command.ofRequest (request c target) = .ok c) :
    s.handle clock (request c target) =
      (match (s.perform clock c).1 with
        | .ok result => Server.success c result
        | .error failure => failure.reply, (s.perform clock c).2) := by
  have notHead : (request c target).method ≠ "HEAD" := by
    unfold request
    dsimp only
    split <;> decide
  have whole : ∀ reply : Reply,
      (if (request c target).method = "HEAD" then reply.withoutBody else reply) = reply := fun _ =>
    if_neg notHead
  unfold Server.handle
  rw [command]
  exact Prod.ext (whole _) rfl

/-- The request to create a pipeline brings it to the server whole, if it is not too long. -/
theorem ofRequest_create (p : PipelineConfig)
    (path : (request (.createPipeline p) target).path = pipelines ++ "create".toList) :
    Command.ofRequest (request (.createPipeline p) target)
      = if Request.bodyLimit < p.toJson.toText.utf8ByteSize then .error .tooLarge
        else .ok (.createPipeline p) := by
  have body : (request (.createPipeline p) target).body = p.toJson.toText := rfl
  have announced : (!(request (.createPipeline p) target).contentType.any MediaType.isJson) = false := by
    have json : MediaType.isJson "application/json" = true := by decide
    simp [request, Command.body?, json]
  have decoded : (request (.createPipeline p) target).decode PipelineConfig.ofJson
      = if Request.bodyLimit < p.toJson.toText.utf8ByteSize then .error .tooLarge else .ok p := by
    unfold Request.decode
    rw [announced, body, p.read_toText]
    dsimp only
    rw [PipelineConfig.undoes_ofJson p]
    simp only [Bool.false_eq_true, if_false]
  have endpoint : Endpoint.ofPath? (pipelines ++ "create".toList) = some .createPipeline := by decide
  have command : Command.ofRequest (request (.createPipeline p) target)
      = (request (.createPipeline p) target).decode PipelineConfig.ofJson >>=
        fun config => .ok (.createPipeline config) := by
    rw [Command.ofRequest, path, endpoint]
    rfl
  rw [command, decoded]
  split <;> rfl

/-- If the reply to that is understood, the pipeline was taken into the catalog. -/
theorem save_of_understand {summary : PipelineSummary}
    (path : (request (.createPipeline p) target).path = pipelines ++ "create".toList)
    (understood : understand (s.handle clock (request (.createPipeline p) target)).1 (.createPipeline p)
      = .ok summary) :
    ∃ catalog, s.catalog.save p = (.ok (), catalog) ∧
      (s.handle clock (request (.createPipeline p) target)).2 = { s with catalog } := by
  have command := ofRequest_create p path
  by_cases long : Request.bodyLimit < p.toJson.toText.utf8ByteSize
  · rw [if_pos long] at command
    rw [Server.handle, command] at understood
    cases understood
  rw [if_neg long] at command
  rw [handle_request command] at understood ⊢
  have performed : s.perform clock (.createPipeline p) = s.create p := rfl
  rw [performed] at understood ⊢
  rcases s.create_cases p with ⟨message, refused⟩ | ⟨catalog, saved, created⟩
  · rw [refused] at understood
    cases understood
  · rw [created]
    exact ⟨catalog, saved, rfl⟩

/-- A pipeline that is found is in the reply. -/
theorem handle_pipeline {name : String}
    (command : Command.ofRequest (request (.pipeline name) target) = .ok (.pipeline name))
    (found : s.catalog.find? name = some p) :
    s.handle clock (request (.pipeline name) target) = (⟨200, .json p.toJson⟩, s) := by
  have performed : s.perform clock (.pipeline name) = (.ok p, s) := by
    simp only [Server.perform, Server.pipeline, found]
  rw [handle_request command, performed]
  rfl

/-- A pipeline is read out of a reply. -/
theorem understand_pipeline (name : String) (p : PipelineConfig) :
    understand ⟨200, .json p.toJson⟩ (.pipeline name) = .ok p := by
  have body : ∀ j : Json, understand ⟨200, .json j⟩ (.pipeline name) = result (.pipeline name) j.toText :=
    fun _ => rfl
  rw [body, result, p.read_toText]
  dsimp only [Command.decode]
  rw [PipelineConfig.undoes_ofJson p]
  rfl

/-! ## Asking for what was created -/

variable {client : Client} {s' : Server} {url : ServerUrl}

/-- A command is carried out if its request can be sent, and its result is what the reply means. -/
theorem ask_direct {c : Command} {address : WebAddress}
    (parsed : WebAddress.parse? (client.baseUrl ++ location c) = some address)
    (reachable : address.isReachable = true) (sendable : Target.isTarget address.toText = true) :
    (client.ask (Transport.direct clock) c).run s
      = (understand (s.handle clock (request c address.target)).1 c,
        (s.handle clock (request c address.target)).2) := by
  unfold ask
  rw [parsed]
  dsimp only
  rw [reachable, sendable]
  rfl

/-- Where there is a result, there was an address that the request could be sent to. -/
theorem sent_of_ask {c : Command} {result : c.Result}
    (h : (client.ask (Transport.direct clock) c).run s = (.ok result, s')) :
    ∃ address, WebAddress.parse? (client.baseUrl ++ location c) = some address ∧
      address.isReachable = true ∧ Target.isTarget address.toText = true := by
  unfold ask at h
  rcases parsed : WebAddress.parse? (client.baseUrl ++ location c) with _ | address
  · rw [parsed] at h
    cases h
  rw [parsed] at h
  dsimp only at h
  by_cases kept : (!address.isReachable || !Target.isTarget address.toText) = true
  · rw [if_pos kept] at h
    cases h
  · exact ⟨address, rfl, by simpa using kept⟩

/-- What a name needs so that the pipeline can be asked for by it. -/
structure Addressable (name : String) : Prop where
  /-- It is one segment of a path, with nothing dropped from it. -/
  segment : StandsAlone name.toList
  /-- It holds nothing that is taken for an escape. -/
  literal : Text.hasEscape name.toList = false
  /-- It is not the place where pipelines are created. -/
  notCreate : name ≠ "create"
  /-- It is not the place where pipelines are listed. -/
  notList : name ≠ "list"

/-- The request for a pipeline with such a name has the name in it for the server to read. -/
theorem ofRequest_pipeline {name : String} (addressable : Addressable name)
    (path : (request (.pipeline name) target).path
      = pipelines ++ Text.escape isForbiddenInPath name.toList) :
    Command.ofRequest (request (.pipeline name) target) = .ok (.pipeline name) := by
  have nonempty : Text.escape isForbiddenInPath name.toList ≠ [] := by
    apply Text.escape_ne_nil
    obtain ⟨c, last, -⟩ := addressable.segment.ends
    exact List.ne_nil_of_mem (List.mem_of_getLast? last)
  have whole : '/' ∉ Text.escape isForbiddenInPath name.toList := fun slash =>
    (WebAddress.plain_of_mem_escape addressable.segment.plain slash).2 rfl
  -- a text without percent signs is the name itself, which is not taken
  have free : ∀ taken : String, '%' ∉ taken.toList → name ≠ taken →
      String.ofList (Text.escape isForbiddenInPath name.toList) ≠ taken := by
    rintro taken noPercent other same
    rw [← same, String.toList_ofList] at noPercent
    rw [Text.escape_eq_self noPercent, String.ofList_toList] at same
    exact other same
  have endpoint := Endpoint.ofPath?_name nonempty whole
    (free "create" (by decide) addressable.notCreate) (free "list" (by decide) addressable.notList)
  have read : Command.nameOf (Text.escape isForbiddenInPath name.toList) = .ok name := by
    rw [Command.nameOf, Text.unescape?_escape WebAddress.ascii_of_allowed addressable.literal,
      String.ofList_toList]
  rw [Command.ofRequest, path, endpoint]
  dsimp only [Endpoint.accepts, Command.atEndpoint]
  rw [read]
  rfl

/-- Whoever has created a pipeline is given it, just as it is, when asking for it by its name, if the
name can be part of an address, and the address is not too long. The server stays as it was. -/
theorem created_pipeline_read_back (url : ServerUrl) (client : Client)
    (atUrl : client.baseUrl = url.text) (p : PipelineConfig) (addressable : Addressable p.name)
    (clock later : Clock) (s s' : Server) (summary : PipelineSummary)
    (created : (client.ask (Transport.direct clock) (.createPipeline p)).run s = (.ok summary, s'))
    (short : ∀ address, WebAddress.parse? (client.baseUrl ++ location (.pipeline p.name)) = some address →
      address.toText.utf8ByteSize ≤ Target.sizeLimit) :
    (client.ask (Transport.direct later) (.pipeline p.name)).run s' = (.ok p, s') := by
  have createAlone : StandsAlone "create".toList := ⟨by decide, ⟨'e', rfl, by decide⟩, rfl, rfl⟩
  have createAt : client.baseUrl ++ location (.createPipeline p)
      = url.text ++ String.ofList (pipelines ++ "create".toList) := by
    rw [atUrl]
    rfl
  have askAt : client.baseUrl ++ location (.pipeline p.name)
      = url.text ++ String.ofList (pipelines ++ p.name.toList) := by
    rw [atUrl, String.ofList_append, String.ofList_toList]
    rfl
  -- the request to create the pipeline was sent, so the URL names a server
  obtain ⟨address, parsed, reachable, sendable⟩ := sent_of_ask created
  rw [ask_direct parsed reachable sendable, Prod.mk.injEq] at created
  obtain ⟨understood, after⟩ := created
  rw [createAt, url.parse?_below createAlone, Option.map_eq_some_iff] at parsed
  obtain ⟨server, split, rfl⟩ := parsed
  -- and it was carried out, so the pipeline is found in the catalog
  have createPath : (request (.createPipeline p) (url.below "create".toList server).target).path
      = pipelines ++ "create".toList := url.path_below server createAlone.plain
  obtain ⟨catalog, saved, same⟩ := save_of_understand createPath understood
  have found : s'.catalog.find? p.name = some p := by
    rw [← after, same]
    exact (Catalog.find?_save saved p.name).trans (if_pos rfl)
  -- the address with the name is on the same server, so that request can be sent as well
  have askParsed : WebAddress.parse? (client.baseUrl ++ location (.pipeline p.name))
      = some (url.below p.name.toList server) := by
    rw [askAt, url.parse?_below addressable.segment, split]
    rfl
  have askSendable : Target.isTarget (url.below p.name.toList server).toText = true := by
    rw [url.isTarget_below server createAlone.plain, Bool.and_eq_true] at sendable
    rw [url.isTarget_below server addressable.segment.plain, Bool.and_eq_true]
    exact ⟨decide_eq_true (short _ askParsed), sendable.2⟩
  have command : Command.ofRequest (request (.pipeline p.name) (url.below p.name.toList server).target)
      = .ok (.pipeline p.name) :=
    ofRequest_pipeline addressable (url.path_below server addressable.segment.plain)
  rw [ask_direct askParsed (url.isReachable_below server) askSendable, handle_pipeline command found,
    understand_pipeline]

/-- A name with a space, a letter outside ASCII and a percent sign that begins no escape. -/
theorem escaped_name_read_back :
    let p : PipelineConfig := { name := "für 100%", materials := [] }
    let client := ofUrl "http://localhost:8080/"
    let s : Server := ⟨{}, Scheduler.fresh (.startingAt 0) (.startingAt ⟨1⟩), {}⟩
    ∃ s', (client.ask (Transport.direct (.still ⟨0, 0⟩)) (.createPipeline p)).run s
        = (.ok (.ofConfig p), s') ∧
      (client.ask (Transport.direct (.still ⟨1, 0⟩)) (.pipeline "für 100%")).run s' = (.ok p, s') := by
  intro p client s
  let url : ServerUrl :=
    ⟨"http", 80, "localhost:8080".toList, by decide, by decide, by decide⟩
  have atUrl : client.baseUrl = url.text := by decide
  have addressable : Addressable "für 100%" :=
    ⟨⟨by decide, ⟨'%', rfl, by decide⟩, by decide, by decide⟩, by decide, by decide, by decide⟩
  have answer : ((client.ask (Transport.direct (.still ⟨0, 0⟩)) (.createPipeline p)).run s).1
      = .ok (.ofConfig p) := by decide +kernel
  have length : ((WebAddress.parse? (client.baseUrl ++ location (.pipeline p.name))).all fun address =>
      address.toText.utf8ByteSize ≤ Target.sizeLimit) = true := by decide +kernel
  rcases created : (client.ask (Transport.direct (.still ⟨0, 0⟩)) (.createPipeline p)).run s with
    ⟨outcome, s'⟩
  rw [created] at answer
  obtain rfl : outcome = .ok (.ofConfig p) := answer
  refine ⟨s', rfl, created_pipeline_read_back url client atUrl p addressable _ _ s s' _ created ?_⟩
  intro address parsed
  rw [parsed] at length
  exact of_decide_eq_true length

/-- A pipeline is not given to whoever asks for it where its name is cut at a slash, is the place of
something else, or has an escape in it, though it has been created under that name. -/
theorem created_pipelines_not_read_back :
    let client := ofUrl "http://localhost:8080"
    let s : Server := ⟨{}, Scheduler.fresh (.startingAt 0) (.startingAt ⟨1⟩), {}⟩
    let lost (p : PipelineConfig) : Prop :=
      let created := (client.ask (Transport.direct (.still ⟨0, 0⟩)) (.createPipeline p)).run s
      Text.isAllBlank p.name = false ∧ created.1 = .ok (.ofConfig p) ∧
        ((client.ask (Transport.direct (.still ⟨1, 0⟩)) (.pipeline p.name)).run created.2).1 ≠ .ok p
    lost { name := "a/b", materials := [] } ∧ lost { name := "list", materials := [] } ∧
      lost { name := "100%41", materials := [] } := by
  decide +kernel

end Client

end BuildServer
