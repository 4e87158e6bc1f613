import HomeScript.Proofs.Device.Wire
import HomeScript.Proofs.Studio.Generate

/-! # What is sent to the home runtime

Requests may ask the runtime for its devices and events, but new code is sent to it only when a
workspace that can be read is deployed: once for each such request, and with the code of its
automations. The response then says whether the runtime took it, and tells the code that was sent. A
body that is too large is not even read.
-/

namespace HomeScript.Studio

/-! ## Talks that only ask -/

/-- Whatever was exchanged before, a talk adds nothing to it but questions. -/
def OnlyGets {α : Type} (m : Talk α) : Prop :=
  ∀ earlier, ∃ added, (m.run earlier).2 = earlier ++ added ∧ ∀ x ∈ added, x.call.method = "GET"

namespace OnlyGets
variable {α β : Type}

theorem pure (x : α) : OnlyGets (Pure.pure x) := by
  intro earlier
  exact ⟨[], (List.append_nil earlier).symm, by simp⟩

theorem bind {m : Talk α} {f : α → Talk β} (hm : OnlyGets m) (hf : ∀ x, OnlyGets (f x)) :
    OnlyGets (m >>= f) := by
  intro earlier
  obtain ⟨added, hadded, hgets⟩ := hm earlier
  obtain ⟨more, hmore, hmoreGets⟩ := hf (m.run earlier).1 (m.run earlier).2
  refine ⟨added ++ more, ?_, ?_⟩
  · rw [← List.append_assoc, ← hadded, ← hmore]
    rfl
  · rw [List.forall_mem_append]
    exact ⟨hgets, hmoreGets⟩

end OnlyGets

namespace Client
variable (c : Client)

/-- What a call comes to: its reply, if there is one and its status says success. -/
def outcome (e : Endpoint) (url : Net.Url) : Option Reply → Except RuntimeError Reply
  | none => .error (.unreachable url)
  | some reply => if reply.isSuccess then .ok reply else .error (.refused e.name reply)

theorem outcome_eq_ok_iff (e : Endpoint) (url : Net.Url) (reply : Option Reply) :
    (outcome e url reply).map (fun _ => ()) = .ok () ↔ reply.any Reply.isSuccess := by
  cases reply with
  | none => simp [outcome, Except.map]
  | some r => cases h : r.isSuccess <;> simp [outcome, h, Except.map]

/-- A call is put to the runtime once, or not at all where it has no address. -/
theorem run_ask (e : Endpoint) (call : Net.Url → Call) (earlier : List Exchange) :
    (c.ask e call).run earlier =
      match c.address e with
      | .error err => (.error err, earlier)
      | .ok url =>
        let reply := c.runtime.reply earlier (call url)
        (outcome e url reply, earlier ++ [⟨call url, reply⟩]) := by
  unfold ask
  cases c.address e with
  | error err => rfl
  | ok url =>
    have hsend : (c.runtime.send (call url)).run earlier
        = (c.runtime.reply earlier (call url),
          earlier ++ [⟨call url, c.runtime.reply earlier (call url)⟩]) := rfl
    simp only [StateT.run_bind, hsend]
    cases c.runtime.reply earlier (call url) <;> rfl

theorem onlyGets_fetch {α : Type} (e : Endpoint) (decode : Json → Except Json.Fault α) :
    OnlyGets (c.fetch e decode) := by
  have hask : OnlyGets (c.ask e fun url => { method := "GET", url }) := by
    intro earlier
    rw [run_ask]
    cases c.address e with
    | error err => exact ⟨[], (List.append_nil earlier).symm, by simp⟩
    | ok url => exact ⟨_, rfl, by simp⟩
  refine hask.bind ?_
  rintro (err | reply)
  · exact .pure _
  · dsimp only
    split <;> exact .pure _

/-- The call that sends code to the runtime. -/
def push (url : Net.Url) (code : String) : Call where
  method := "POST"
  url := url
  contentType := some "text/plain; charset=utf-8"
  body := code

theorem run_updateCode_unaddressed {err : RuntimeError}
    (haddress : c.address .updateCode = .error err) (code : String) (earlier : List Exchange) :
    (c.updateCode code).run earlier = (.error err, earlier) := by
  simp only [updateCode, StateT.run_bind, run_ask, haddress]
  rfl

theorem run_updateCode {url : Net.Url} (haddress : c.address .updateCode = .ok url)
    (code : String) (earlier : List Exchange) :
    let reply := c.runtime.reply earlier (push url code)
    (c.updateCode code).run earlier
      = ((outcome .updateCode url reply).map (fun _ => ()),
        earlier ++ [⟨push url code, reply⟩]) := by
  simp only [updateCode, StateT.run_bind, run_ask, haddress]
  rfl

/-- The calls that send codes to the runtime, provided that it has an address for them. -/
def pushes (codes : List String) : List Call :=
  match c.address .updateCode with
  | .ok url => codes.map (push url)
  | .error _ => []

@[simp]
theorem pushes_nil : c.pushes [] = [] := by
  unfold pushes
  cases c.address .updateCode <;> rfl

theorem pushes_append (xs ys : List String) : c.pushes (xs ++ ys) = c.pushes xs ++ c.pushes ys := by
  unfold pushes
  cases c.address .updateCode with
  | ok url => exact List.map_append
  | error err => rfl

end Client

/-! ## Requests -/

/-- A request for a route has its path, and its method rather than another one that is served. -/
def Request.IsFor (r : Request) (route : Route) : Prop :=
  r.method = route.method ∧ r.path = route.path

instance (r : Request) (route : Route) : Decidable (r.IsFor route) :=
  inferInstanceAs (Decidable (r.method = route.method ∧ r.path = route.path))

theorem utf8ByteSize_blanks (n : ℕ) :
    (String.ofList (List.replicate n ' ')).utf8ByteSize = n := by
  induction n with
  | zero => rfl
  | succ n ih =>
    rw [List.replicate_succ, String.ofList_cons, String.utf8ByteSize_append, ih, Nat.add_comm]
    rfl

/-- Enough blanks after it make any text too large. -/
theorem Request.isOversized_of_blanks {r : Request} {text : String} (htext : 0 < text.utf8ByteSize)
    (hbody : r.body = text ++ String.ofList (List.replicate bodyLimit ' ')) : r.isOversized := by
  rw [isOversized, hbody, String.utf8ByteSize_append, utf8ByteSize_blanks, decide_eq_true_eq]
  omega

/-- A response that tells a code and the warnings about it. -/
structure Response.Reports (r : Response) (code : String) (warnings : List String) : Prop where
  status : r.status = 200
  contentType : r.contentType = some "application/json"
  body : Json.read r.body = .ok (.object [("success", .boolean true), ("data",
    .object [("code", .string code), ("warnings", .array (warnings.map .string))])])

namespace Service
variable (s : Service) {r : Request} {earlier : List Exchange}

theorem handle_of_isFor {route : Route} (h : r.IsFor route) : s.handle r = s.run r route := by
  obtain ⟨hmethod, hpath⟩ := h
  have hroute : Route.ofPath route.path = some route := by cases route <;> decide
  have hnot : route.method ≠ "OPTIONS" := by cases route <;> decide
  unfold handle
  simp only [hmethod, hpath, hroute, if_neg hnot, if_true]

theorem run_of_not_isOversized (h : ¬ r.isOversized) (route : Route) :
    s.run r route = s.dispatch r route := by
  have hfits : overflow? r route = none := by
    cases route <;> simp [overflow?, h]
  rw [run, hfits]

/-! ### Requests that deploy nothing -/

theorem onlyGets_dispatch {route : Route} (h : route ≠ .deploy) (r : Request) :
    OnlyGets (s.dispatch r route) := by
  cases route with
  | devices =>
    refine (s.client.onlyGets_fetch .devices Device.listOfJson).bind ?_
    rintro (err | ds) <;> exact .pure _
  | events =>
    refine (s.client.onlyGets_fetch .possibleEvents RuntimeEvent.listOfJson).bind ?_
    rintro (err | es)
    · refine (s.client.onlyGets_fetch .devices Device.listOfJson).bind ?_
      rintro (err | ds) <;> exact .pure _
    · exact .pure _
  | deploy => exact absurd rfl h
  | health | systemInfo | transpile | generate | validateTime => exact .pure _

theorem onlyGets_run {route : Route} (h : route ≠ .deploy) (r : Request) :
    OnlyGets (s.run r route) := by
  unfold run
  split
  · exact .pure _
  · exact s.onlyGets_dispatch h r

theorem onlyGets_handle (h : ¬ r.IsFor .deploy) : OnlyGets (s.handle r) := by
  unfold handle
  split
  · exact .pure _
  · split
    · exact .pure _
    · next route hroute =>
      have hpath : route.path = r.path := by
        simpa using List.find?_some hroute
      split
      · next hmethod =>
        refine s.onlyGets_run ?_ r
        rintro rfl
        exact h ⟨hmethod, hpath.symm⟩
      · split
        · next hhead =>
          refine (s.onlyGets_run ?_ r).bind fun response => .pure _
          rintro rfl
          exact absurd hhead.2 (by decide)
        · exact .pure _

/-! ### Responses that tell a code -/

theorem sorted_transpiledJson (t : Transpiled) : (transpiledJson t).sorted = .object
    [("code", .string t.code), ("warnings", .array (t.warnings.map .string))] := by
  have htexts : (t.warnings.map Json.string).map Json.sorted = t.warnings.map Json.string := by
    rw [List.map_map]
    rfl
  simp only [transpiledJson, Json.sorted, Json.sortedEach_eq, Json.sortedMembers,
    Json.insertMember, String.reduceEq, String.reduceLT, if_false, htexts]

theorem reports_success (t : Transpiled) :
    (Response.success (transpiledJson t)).Reports t.code t.warnings where
  status := rfl
  contentType := rfl
  body := by
    have htexts : Json.depthEach (t.warnings.map .string) = 0 := by
      rw [← Nat.le_zero, Json.depthEach_le_iff, List.forall_mem_map]
      exact fun _ _ => le_rfl
    have hsame : Json.rereadEach (t.warnings.map .string) = t.warnings.map .string :=
      Json.rereadEach_map _ _
    rw [Response.success, Response.json, sorted_transpiledJson, Json.read_text]
    · simp only [Json.reread, Json.rereadMembers, hsame]
    · simp [Json.depth, Json.depthMembers, htexts, Json.Reader.maxDepth]

/-! ### Requests that deploy -/

/-- A body that is too large is refused, whether or not there is a workspace in it. -/
theorem run_oversized (h : r.IsFor .deploy) (hsize : r.isOversized) :
    (s.handle r).run earlier = (oversized, earlier) := by
  rw [s.handle_of_isFor h, run, overflow?, if_pos hsize]
  rfl

theorem handle_of_deploy (h : r.IsFor .deploy) (hsize : ¬ r.isOversized) :
    s.handle r = s.deploy r := by
  rw [s.handle_of_isFor h, s.run_of_not_isOversized hsize]
  rfl

theorem run_deploy_refused {fault : Json.Fault} (hread : Workspace.read r.body = .error fault) :
    (s.deploy r).run earlier = (workspaceRefused, earlier) := by
  have htext : transpileText s.quoting r.body = .error fault := by
    rw [transpileText, hread]
    rfl
  rw [deploy, htext]
  rfl

section Read
variable {w : Workspace} (hread : Workspace.read r.body = .ok w)
include hread

theorem transpileText_of_read :
    transpileText s.quoting r.body = .ok (w.transpile s.quoting).value := by
  rw [transpileText, hread]
  rfl

theorem transpile_of_read :
    s.transpile r = .success (transpiledJson (w.transpile s.quoting).value) := by
  rw [transpile, s.transpileText_of_read hread]

theorem reports_transpile : (s.transpile r).Reports (Program.code s.quoting w.automations.value)
    ((Registry.ofProgram w.automations.value).2.map DuplicateName.message) := by
  rw [s.transpile_of_read hread]
  exact reports_success _

theorem run_deploy_unaddressed {err : RuntimeError}
    (haddress : s.client.address .updateCode = .error err) :
    (s.deploy r).run earlier = (runtimeFailed err, earlier) := by
  rw [deploy, s.transpileText_of_read hread]
  simp only [StateT.run_bind, s.client.run_updateCode_unaddressed haddress]
  rfl

/-- The response to a deploy is that of generating code if the runtime takes the code. -/
theorem run_deploy_pushed {url : Net.Url} (haddress : s.client.address .updateCode = .ok url)
    (earlier : List Exchange) :
    let call := Client.push url (Program.code s.quoting w.automations.value)
    let reply := s.client.runtime.reply earlier call
    ∃ response, (s.deploy r).run earlier = (response, earlier ++ [⟨call, reply⟩])
      ∧ if reply.any Reply.isSuccess then response = s.transpile r
        else ∃ err, response = runtimeFailed err := by
  intro call reply
  have hcode : (w.transpile s.quoting).value.code
      = Program.code s.quoting w.automations.value := rfl
  have htaken := Client.outcome_eq_ok_iff .updateCode url reply
  rw [deploy, s.transpileText_of_read hread]
  simp only [StateT.run_bind, hcode, s.client.run_updateCode haddress]
  cases hanswer : (Client.outcome .updateCode url reply).map fun _ => () with
  | ok _ =>
    refine ⟨_, rfl, ?_⟩
    rw [if_pos (htaken.mp hanswer), s.transpile_of_read hread]
  | error err =>
    refine ⟨_, rfl, ?_⟩
    rw [if_neg fun h => nomatch hanswer.symm.trans (htaken.mpr h)]
    exact ⟨err, rfl⟩

end Read

end Service

/-! ## Sessions -/

/-- The automations to deploy, if a request asks for that and its workspace is taken and read. -/
def Request.deployed? (r : Request) : Option Program :=
  if r.IsFor .deploy ∧ ¬ r.isOversized then
    (Workspace.read r.body).toOption.map fun w => w.automations.value
  else none

/-- A request, its response, and what was exchanged with the runtime for it. -/
structure Turn where
  request : Request
  response : Response
  exchanges : List Exchange

namespace Turn

/-- The calls that are more than questions. -/
def pushes (t : Turn) : List Call :=
  (t.exchanges.map Exchange.call).filter (·.method ≠ "GET")

theorem pushes_eq_nil {t : Turn} (h : ∀ x ∈ t.exchanges, x.call.method = "GET") :
    t.pushes = [] := by
  simpa [pushes] using h

/-- The runtime took the code that it was sent. -/
def Taken (t : Turn) : Prop :=
  ∃ x ∈ t.exchanges, x.call.method = "POST" ∧ x.reply.any Reply.isSuccess

end Turn

namespace Service
variable (s : Service) {r : Request} {earlier : List Exchange}

/-- The code to deploy, if there is any. -/
def deployedCode (r : Request) : Option String :=
  r.deployed?.map (Program.code s.quoting)

/-- What a service keeps to in each turn. -/
structure Answers (t : Turn) : Prop where
  /-- Whatever is asked, the runtime is sent nothing but questions and the code of a deploy. -/
  pushes : t.pushes = s.client.pushes (s.deployedCode t.request).toList
  refused : t.request.IsFor .deploy → ¬ t.request.isOversized →
    ∀ fault, Workspace.read t.request.body = .error fault →
      t.response.status = 400 ∧ t.exchanges = []
  oversized : t.request.IsFor .deploy → t.request.isOversized →
    t.response.status = 413 ∧ t.exchanges = []
  /-- Code that was taken is told, with the names that its automations share, and the response is
  the same as if the code had only been asked for. -/
  taken : ∀ p, t.request.deployed? = some p → t.Taken →
    t.response.Reports (p.code s.quoting) ((Registry.ofProgram p).2.map DuplicateName.message)
      ∧ ∀ r earlier, r.IsFor .transpile → r.body = t.request.body →
        (s.handle r).run earlier = (t.response, earlier)
  failed : t.request.deployed?.isSome → ¬ t.Taken → t.response.status = 502

/-- A request is answered, and the exchanges that it takes come after all earlier ones. -/
def Handles (earlier : List Exchange) (r : Request) : Prop :=
  ∃ response added, (s.handle r).run earlier = (response, earlier ++ added)
    ∧ s.Answers ⟨r, response, added⟩

/-- Where there is no code to deploy, it is enough that the runtime is only asked. -/
theorem answers_of_none {t : Turn} (hnone : t.request.deployed? = none)
    (hgets : ∀ x ∈ t.exchanges, x.call.method = "GET")
    (hrefused : t.request.IsFor .deploy → t.exchanges = []
      ∧ t.response.status = if t.request.isOversized then 413 else 400) : s.Answers t := by
  constructor
  · rw [deployedCode, hnone, Turn.pushes_eq_nil hgets]
    exact s.client.pushes_nil.symm
  · intro hdeploy hsize _ _
    obtain ⟨hnil, hstatus⟩ := hrefused hdeploy
    exact ⟨hstatus.trans (if_neg hsize), hnil⟩
  · intro hdeploy hsize
    obtain ⟨hnil, hstatus⟩ := hrefused hdeploy
    exact ⟨hstatus.trans (if_pos hsize), hnil⟩
  · rw [hnone]
    rintro p ⟨⟩
  · rw [hnone]
    rintro ⟨⟩

theorem handles_of_not_isFor (h : ¬ r.IsFor .deploy) : s.Handles earlier r := by
  obtain ⟨added, hadded, hgets⟩ := s.onlyGets_handle h earlier
  have hnone : r.deployed? = none := if_neg fun hr => h hr.1
  refine ⟨_, added, Prod.ext rfl hadded, ?_⟩
  apply s.answers_of_none hnone hgets
  intro hdeploy
  exact absurd hdeploy h

section Deploy
variable (h : r.IsFor .deploy)
include h

theorem handles_of_isOversized (hsize : r.isOversized) : s.Handles earlier r := by
  have hnone : r.deployed? = none := if_neg fun hr => hr.2 hsize
  have hrun : (s.handle r).run earlier = (oversized, earlier ++ []) := by
    rw [List.append_nil]
    exact s.run_oversized h hsize
  refine ⟨_, _, hrun, ?_⟩
  apply s.answers_of_none hnone
  · rintro x ⟨⟩
  · intro _
    exact ⟨rfl, (if_pos hsize).symm⟩

variable (hsize : ¬ r.isOversized)
include hsize

theorem handles_of_refused {fault : Json.Fault} (hread : Workspace.read r.body = .error fault) :
    s.Handles earlier r := by
  have hnone : r.deployed? = none := by
    rw [Request.deployed?, if_pos ⟨h, hsize⟩, hread]
    rfl
  have hrun : (s.handle r).run earlier = (workspaceRefused, earlier ++ []) := by
    rw [s.handle_of_deploy h hsize, List.append_nil]
    exact s.run_deploy_refused hread
  refine ⟨_, _, hrun, ?_⟩
  apply s.answers_of_none hnone
  · rintro x ⟨⟩
  · intro _
    exact ⟨rfl, (if_neg hsize).symm⟩

variable {w : Workspace} (hread : Workspace.read r.body = .ok w)
include hread

theorem deployed?_eq_some : r.deployed? = some w.automations.value := by
  rw [Request.deployed?, if_pos ⟨h, hsize⟩, hread]
  rfl

theorem handles_of_unaddressed {err : RuntimeError}
    (haddress : s.client.address .updateCode = .error err) : s.Handles earlier r := by
  have hrun : (s.handle r).run earlier = (runtimeFailed err, earlier ++ []) := by
    rw [s.handle_of_deploy h hsize, List.append_nil]
    exact s.run_deploy_unaddressed hread haddress
  refine ⟨_, _, hrun, ?_⟩
  constructor
  · rw [Client.pushes, haddress]
    rfl
  · intro _ _ fault hfault
    exact nomatch hread.symm.trans hfault
  · intro _ hlarge
    exact absurd hlarge hsize
  · rintro p - ⟨x, hx, -⟩
    exact nomatch hx
  · intro _ _
    rfl

theorem handles_of_pushed {url : Net.Url} (haddress : s.client.address .updateCode = .ok url) :
    s.Handles earlier r := by
  have hdeployed : r.deployed? = some w.automations.value := deployed?_eq_some h hsize hread
  obtain ⟨response, hrun, hresponse⟩ := s.run_deploy_pushed hread haddress earlier
  generalize s.client.runtime.reply earlier _ = reply at hrun hresponse
  refine ⟨response, _, (congrFun (s.handle_of_deploy h hsize) earlier).trans hrun, ?_⟩
  set t : Turn := ⟨r, response, _⟩
  have htaken : t.Taken ↔ reply.any Reply.isSuccess := by
    simp [t, Turn.Taken, Client.push]
  constructor
  · rw [deployedCode, hdeployed, Client.pushes, haddress]
    rfl
  · intro _ _ fault hfault
    exact nomatch hread.symm.trans hfault
  · intro _ hlarge
    exact absurd hlarge hsize
  · intro p hp ht
    obtain rfl : w.automations.value = p := Option.some.inj (hdeployed.symm.trans hp)
    obtain rfl : response = s.transpile r := by rwa [if_pos (htaken.mp ht)] at hresponse
    refine ⟨s.reports_transpile hread, ?_⟩
    intro r' earlier' hfor hbody
    have hsize' : ¬ r'.isOversized := by rwa [Request.isOversized, hbody]
    have hsame : s.transpile r' = s.transpile r := by
      rw [transpile, transpile, hbody]
    rw [s.handle_of_isFor hfor, s.run_of_not_isOversized hsize']
    exact congrArg (·, earlier') hsame
  · intro _ ht
    rw [if_neg (mt htaken.mpr ht)] at hresponse
    obtain ⟨err, rfl⟩ := hresponse
    rfl

end Deploy

theorem handles (earlier : List Exchange) (r : Request) : s.Handles earlier r := by
  by_cases h : r.IsFor .deploy
  · by_cases hsize : r.isOversized
    · exact s.handles_of_isOversized h hsize
    · cases hread : Workspace.read r.body with
      | error fault => exact s.handles_of_refused h hsize hread
      | ok w =>
        cases haddress : s.client.address .updateCode with
        | error err => exact s.handles_of_unaddressed h hsize hread haddress
        | ok url => exact s.handles_of_pushed h hsize hread haddress
  · exact s.handles_of_not_isFor h

/-! ### Turn after turn -/

def turn (earlier : List Exchange) (r : Request) : Turn :=
  let (response, after) := (s.handle r).run earlier
  ⟨r, response, after.drop earlier.length⟩

/-- The turns of a session after earlier exchanges. -/
def turns : List Exchange → List Request → List Turn
  | _, [] => []
  | earlier, r :: rest =>
    s.turn earlier r :: turns (earlier ++ (s.turn earlier r).exchanges) rest

theorem turn_eq {response : Response} {added : List Exchange}
    (h : (s.handle r).run earlier = (response, earlier ++ added)) :
    s.turn earlier r = ⟨r, response, added⟩ := by
  unfold turn
  rw [h]
  simp only [List.drop_left]

/-- A runtime that takes the code makes it a turn in which it was taken. -/
theorem taken_turn (h : r.IsFor .deploy) (hsize : ¬ r.isOversized) {w : Workspace}
    (hread : Workspace.read r.body = .ok w) {url : Net.Url}
    (haddress : s.client.address .updateCode = .ok url)
    (hreply : (s.client.runtime.reply earlier (Client.push url
      (Program.code s.quoting w.automations.value))).any Reply.isSuccess) :
    (s.turn earlier r).Taken := by
  obtain ⟨response, hrun, -⟩ := s.run_deploy_pushed hread haddress earlier
  rw [← s.handle_of_deploy h hsize] at hrun
  rw [s.turn_eq hrun]
  exact ⟨_, List.mem_singleton_self _, rfl, hreply⟩

theorem run_handle :
    (s.handle r).run earlier
      = ((s.turn earlier r).response, earlier ++ (s.turn earlier r).exchanges) := by
  obtain ⟨response, added, hrun, -⟩ := s.handles earlier r
  rw [s.turn_eq hrun, hrun]

theorem answers_turn : s.Answers (s.turn earlier r) := by
  obtain ⟨response, added, hrun, hanswers⟩ := s.handles earlier r
  rw [s.turn_eq hrun]
  exact hanswers

theorem run_handleAll_cons (rest : List Request) :
    (s.handleAll (r :: rest)).run earlier =
      let (response, after) := (s.handle r).run earlier
      let (responses, last) := (s.handleAll rest).run after
      (response :: responses, last) :=
  rfl

theorem run_turns (earlier : List Exchange) (rs : List Request) :
    (s.handleAll rs).run earlier = ((s.turns earlier rs).map Turn.response,
      earlier ++ (s.turns earlier rs).flatMap Turn.exchanges) := by
  induction rs generalizing earlier with
  | nil =>
    rw [turns, List.flatMap_nil, List.append_nil]
    rfl
  | cons r rest ih =>
    rw [run_handleAll_cons, run_handle]
    dsimp only
    rw [ih, List.append_assoc]
    rfl

theorem pushes_turns (earlier : List Exchange) (rs : List Request) :
    (s.turns earlier rs).flatMap Turn.pushes = s.client.pushes (rs.filterMap s.deployedCode) := by
  induction rs generalizing earlier with
  | nil => exact s.client.pushes_nil.symm
  | cons r rest ih =>
    have hcodes : (r :: rest).filterMap s.deployedCode
        = (s.deployedCode r).toList ++ rest.filterMap s.deployedCode := by
      cases hcode : s.deployedCode r <;> simp [hcode]
    rw [turns, List.flatMap_cons, ih, hcodes, Client.pushes_append, s.answers_turn.pushes]
    rfl

theorem request_turns (earlier : List Exchange) (rs : List Request) :
    (s.turns earlier rs).map Turn.request = rs := by
  induction rs generalizing earlier with
  | nil => rfl
  | cons r rest ih =>
    rw [turns, List.map_cons, ih]
    rfl

theorem answers_of_mem_turns {rs : List Request} {t : Turn} (ht : t ∈ s.turns earlier rs) :
    s.Answers t := by
  induction rs generalizing earlier with
  | nil => exact absurd ht List.not_mem_nil
  | cons r rest ih =>
    rcases List.mem_cons.mp ht with rfl | ht
    · exact s.answers_turn
    · exact ih ht

/-- In a session the runtime is sent the code of each deploy in turn, and nothing else but
questions. -/
theorem pushes_handleAll (earlier : List Exchange) (rs : List Request) :
    let ts := s.turns earlier rs
    (s.handleAll rs).run earlier
        = (ts.map Turn.response, earlier ++ ts.flatMap Turn.exchanges)
      ∧ ts.map Turn.request = rs
      ∧ ts.flatMap Turn.pushes = s.client.pushes (rs.filterMap s.deployedCode)
      ∧ ∀ t ∈ ts, s.Answers t := by
  intro ts
  refine ⟨s.run_turns earlier rs, s.request_turns earlier rs, s.pushes_turns earlier rs, ?_⟩
  intro t ht
  exact s.answers_of_mem_turns ht

/-- Two automations without a name are sent to a runtime that takes them, and the response warns of
the name that they share. -/
theorem pushes_handleAll_unnamed :
    let automation : Json := .object [("type", .string "automation")]
    let blocks : Json := .object [("blocks", .array [automation, automation])]
    let r : Request := {
      method := "POST"
      target := "/api/v1/deploy"
      body := (Json.object [("blocks", blocks)]).text }
    let s : Service := {
      quoting := .escaped
      client := {
        runtime := { reply := fun _ _ => some { status := 204 } }
        baseUrl := { scheme := "http", host := some (.name "runtime"), path := .segments [""] } } }
    let t := s.turn [] r
    let code := "automation \"\" (None) \x7b\n\x7d\n\nautomation \"\" (None) \x7b\n\x7d\n\n"
    r.deployed? = some [{ name := "" }, { name := "" }] ∧ t.Taken
      ∧ (∃ url, t.pushes = [Client.push url code])
      ∧ t.response.Reports code ["Duplicate automation name \"\" (already used by #0)"] := by
  intro automation blocks r s t code
  have hfor : r.IsFor .deploy := by decide
  have hsize : ¬ r.isOversized := by decide +kernel
  obtain ⟨url, hurl⟩ : ∃ url, s.client.address .updateCode = .ok url :=
    Json.exists_of_isOk (by decide +kernel)
  have hread : Workspace.read r.body
      = .ok ⟨[{ type := "automation" }, { type := "automation" }]⟩ := by
    apply read_workspace (by decide)
    have hblock : Block.ofJson automation.reread = .ok { type := "automation" } := by
      rw [Block.ofJson_eq]
      rfl
    rw [Json.rereadEach, Json.rereadEach, List.mapM_cons, List.mapM_cons, hblock]
    rfl
  have hdeployed : r.deployed? = some [{ name := "" }, { name := "" }] :=
    deployed?_eq_some hfor hsize hread
  have htaken : t.Taken := s.taken_turn hfor hsize hread hurl rfl
  obtain ⟨-, -, -, hanswers⟩ := s.pushes_handleAll [] [r]
  have ht := hanswers t (List.mem_singleton_self t)
  have hcode : Program.code .escaped [{ name := "" }, { name := "" }] = code := by decide +kernel
  have hwarnings : (Registry.ofProgram [{ name := "" }, { name := "" }]).2.map
      DuplicateName.message = ["Duplicate automation name \"\" (already used by #0)"] := by
    decide +kernel
  have hreports := (ht.taken _ hdeployed htaken).1
  rw [hwarnings] at hreports
  refine ⟨hdeployed, htaken, ⟨url, ?_⟩, hcode ▸ hreports⟩
  rw [ht.pushes, deployedCode]
  change s.client.pushes (r.deployed?.map _).toList = _
  rw [hdeployed, Client.pushes, hurl, ← hcode]
  rfl

/-- A workspace with so many blanks after it that it is too large is not sent, although it could be
read. -/
theorem unpushed_of_isOversized :
    let blanks := List.replicate bodyLimit ' '
    let r : Request := {
      method := "POST"
      target := "/api/v1/deploy"
      body := (Json.object []).text ++ String.ofList blanks }
    let s : Service := {
      quoting := .escaped
      client := {
        runtime := .absent
        baseUrl := { scheme := "http", host := some (.name "runtime"), path := .segments [""] } } }
    let t := s.turn [] r
    (∃ w, Workspace.read r.body = .ok w
        ∧ s.client.pushes [Program.code s.quoting w.automations.value] ≠ [])
      ∧ t.pushes = [] ∧ t.response.status = 413 := by
  intro blanks r s t
  have hread : Workspace.read r.body = .ok ⟨[]⟩ := by
    have hblanks : ∀ c ∈ blanks, Json.Reader.isSpace c := by
      intro c hc
      rw [List.eq_of_mem_replicate hc]
      rfl
    rw [Workspace.read, Json.read_text_append (by decide) hblanks]
    rfl
  have hsize : r.isOversized := Request.isOversized_of_blanks (by decide) rfl
  obtain ⟨url, hurl⟩ : ∃ url, s.client.address .updateCode = .ok url :=
    Json.exists_of_isOk (by decide +kernel)
  have hturn : t = ⟨r, Studio.oversized, []⟩ := s.turn_eq (s.run_oversized (by decide) hsize)
  refine ⟨⟨_, hread, ?_⟩, ?_, ?_⟩
  · rw [Client.pushes, hurl]
    exact List.cons_ne_nil _ _
  · rw [hturn]
    rfl
  · rw [hturn]
    rfl

end Service
end HomeScript.Studio
