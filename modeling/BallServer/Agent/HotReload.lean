import Mathlib.Data.List.Basic
import Mathlib.Logic.Function.Basic

/-!
# Reloading a module of an agent

{lit}`hotfix_module` requires a file of the agent again, in the running service.  The file is
executed from the top on the one table of the service: it defines handlers, creates fields of
{lit}`s.data` that are missing, may require configurations, and one of the files ends with
{lit}`s.start`.  A new version may also assign what the agent already has, or take a handler away.
When a statement raises an error, what was executed before stays.

{lit}`hotfix_config` requires a table and copies its content into the old one.

Main results:

- Structure {lit}`AgentState.Ran`: what the executed statements of a file leave behind.
- Theorem {lit}`hotfix_intact_iff`: in every reachable state a reload leaves the agent intact if
  and only if the executed statements are harmless.
- Theorem {lit}`harmless_of_present`: four of the five files are harmless as they are.
- Theorem {lit}`not_hotfix_intact`: {lit}`match` as it is starts the agent a second time and takes
  its id away.
-/

namespace BallServer.Agent.HotReload

/-- A value of {lit}`package.loaded`: a table, or anything else. -/
inductive Value where
  | table (ref : Nat)
  | plain
deriving DecidableEq, Repr

/-- The fields of {lit}`s` that say who the agent is, what it has and how it is served. -/
def ownNames : List String :=
  ["name", "id", "state", "login_version", "data", "client", "resp", "hotfixing", "call_depth"]

/-- A statement at the top of a file of the agent. -/
inductive Line where
  /-- {lit}`function s.client.name` -/
  | client (name : String)
  /-- {lit}`function s.resp.name` -/
  | resp (name : String)
  /-- {lit}`s.client.name = nil` -/
  | dropClient (name : String)
  /-- {lit}`s.resp.name = nil` -/
  | dropResp (name : String)
  /-- {lit}`s.client = \x7b\x7d` -/
  | clearClient
  /-- {lit}`s.resp = \x7b\x7d` -/
  | clearResp
  /-- {lit}`function s.name`, or another field of {lit}`s`, that is none of the agent's own -/
  | service (name : String) (other : name ∉ ownNames := by decide)
  /-- {lit}`s.id = id` -/
  | setId (id : Option Nat)
  /-- {lit}`s.state = state` -/
  | setState (state : Nat)
  /-- {lit}`s.login_version = version` -/
  | setLoginVersion (version : Option String)
  /-- {lit}`s.data` becomes a table with these fields. -/
  | setData (fields : List (String × Nat))
  /-- {lit}`s.data.field = value` -/
  | setField (field : String) (value : Option Nat)
  /-- {lit}`s.data.field`, if it is missing, becomes an empty table. -/
  | ensure (field : String)
  /-- {lit}`remount_mails()` -/
  | remount
  /-- {lit}`require(name)` -/
  | require (name : String)
  /-- {lit}`s.start(...)` -/
  | start
  /-- A statement that raises an error, or a file that cannot be loaded. -/
  | raise (err : String)
deriving DecidableEq, Repr

/-- The files as they are now: the statements of a module; the table a configuration returns, if
it returns one. -/
structure Disk where
  modules : String → List Line
  configs : String → Except String (Option Nat)

/-- The agent as far as reloading can touch it.  Functions and tables are numbers; {lit}`inits`
counts the calls of {lit}`skynet.start`. -/
structure AgentState where
  name : String
  id : Option Nat
  state : Nat
  loginVersion : Option String
  data : String → Option Nat
  client : String → Option Nat
  resp : String → Option Nat
  service : String → Option Nat
  mailClass : Nat
  loaded : String → Option Value
  contents : Nat → Nat
  nextRef : Nat
  inits : Nat
  hotfixing : Bool
  callDepth : Nat

/-- {lit}`HOTFIX_MODULES` -/
def hotfixModules : List String := ["bag", "achieve", "mail", "friend", "match"]

/-- {lit}`HOTFIX_CONFIGS` -/
def hotfixConfigs : List String := ["item_config", "achieve_config"]

/-- {lit}`MODULE_CONFIGS` -/
def moduleConfigs (modname : String) : List String :=
  if modname = "bag" then ["item_config"]
  else if modname = "achieve" then ["achieve_config"]
  else []

/-- The statements at the top of the files of the agent. -/
def topLines (modname : String) : List Line :=
  if modname = "bag" then
    [.require "skynet", .require "service", .require "item_config", .require "cjson",
      .ensure "items", .service "bag_init", .client "baglist", .client "use_item",
      .service "sub_item", .service "add_item", .service "save_bag"]
  else if modname = "achieve" then
    [.require "skynet", .require "service", .require "cjson", .require "achieve_config",
      .ensure "achieves", .service "achieve_init", .client "achieve_list",
      .client "achieve_claim", .service "achieve_progress", .service "achieve_trigger",
      .service "save_achieve"]
  else if modname = "mail" then
    [.require "skynet", .require "service", .require "runconfig", .require "class",
      .ensure "mails", .service "deleted_mails_id", .remount, .service "mail_init",
      .client "mail_list", .client "mail_read", .client "mail_claim", .client "mail_delete",
      .service "storage_mail", .service "send_mail", .resp "new_mail", .service "leave_mail"]
  else if modname = "friend" then
    [.require "skynet", .require "service", .require "runconfig", .require "protobuf",
      .ensure "friends", .ensure "friends_pending", .service "friend_init",
      .client "friend_list", .client "friend_pending_list", .resp "get_info",
      .resp "friend_notify", .client "friend_info", .client "friend_add",
      .client "friend_delete", .client "friend_reject", .client "friend_accept"]
  else if modname = "match" then
    [.require "skynet", .require "service", .require "runconfig", .require "cjson",
      .client "join_match", .client "cancel_match", .client "match_status", .client "prepare",
      .resp "battle_result", .service "leave_match_or_room", .resp "battle_leave_room",
      .resp "can_shutdown_kick", .start]
  else []

/-- {lit}`check_hotfix_name`.  The name may be no string. -/
def checkHotfixName (name : Option String) (allow : List String) : Except String String :=
  match name with
  | none => .error "bad name"
  | some name =>
      if name = "" then .error "bad name"
      else if name.toList.any fun c => !(c.isAlphanum || c == '_' || c == '.') then
        .error ("invalid name: " ++ name)
      else if name ∉ allow then .error ("not allowed: " ++ name)
      else .ok name

namespace AgentState

/-- {lit}`require` of a file that is not loaded and returns this. -/
def load (a : AgentState) (name : String) (content : Option Nat) : AgentState :=
  match content with
  | none => { a with loaded := Function.update a.loaded name (some .plain) }
  | some x =>
      { a with
        loaded := Function.update a.loaded name (some (.table a.nextRef))
        contents := Function.update a.contents a.nextRef x
        nextRef := a.nextRef + 1 }

/-- Execute a statement that raises no error.  A file that is required gets its own name and its
path as arguments, and {lit}`s.start` takes the path for the id. -/
def effect (disk : Disk) (modname : String) (a : AgentState) : Line → AgentState
  | .client name =>
      { a with client := Function.update a.client name (some a.nextRef), nextRef := a.nextRef + 1 }
  | .resp name =>
      { a with resp := Function.update a.resp name (some a.nextRef), nextRef := a.nextRef + 1 }
  | .dropClient name => { a with client := Function.update a.client name none }
  | .dropResp name => { a with resp := Function.update a.resp name none }
  | .clearClient => { a with client := fun _ => none }
  | .clearResp => { a with resp := fun _ => none }
  | .service name _ =>
      { a with
        service := Function.update a.service name (some a.nextRef)
        nextRef := a.nextRef + 1 }
  | .setId id => { a with id := id }
  | .setState state => { a with state := state }
  | .setLoginVersion version => { a with loginVersion := version }
  | .setData fields => { a with data := fun f => fields.lookup f }
  | .setField field value => { a with data := Function.update a.data field value }
  | .ensure field =>
      if a.data field = none then { a with data := Function.update a.data field (some 0) } else a
  | .remount => { a with mailClass := a.nextRef, nextRef := a.nextRef + 1 }
  | .require name =>
      match a.loaded name, disk.configs name with
      | none, .ok content => a.load name content
      | _, _ => a
  | .start => { a with name := modname, id := none, inits := a.inits + 1 }
  | .raise _ => a

end AgentState

/-- The error a statement raises, when these files are loaded. -/
def Line.fails (disk : Disk) (loaded : String → Bool) : Line → Option String
  | .raise err => some err
  | .require name =>
      if loaded name then none
      else match disk.configs name with
        | .ok _ => none
        | .error err => some err
  | _ => none

/-- The files that are loaded after a statement. -/
def Line.loads (loaded : String → Bool) : Line → String → Bool
  | .require name => Function.update loaded name true
  | _ => loaded

/-- The statements before the first one that raises an error. -/
def completed (disk : Disk) : (String → Bool) → List Line → List Line
  | _, [] => []
  | loaded, x :: rest =>
      match x.fails disk loaded with
      | some _ => []
      | none => x :: completed disk (x.loads loaded) rest

/-- The error of the file. -/
def failure (disk : Disk) : (String → Bool) → List Line → Option String
  | _, [] => none
  | loaded, x :: rest =>
      match x.fails disk loaded with
      | some err => some err
      | none => failure disk (x.loads loaded) rest

namespace AgentState

/-- Execute a file from the top: the agent afterwards, and the error. -/
def exec (disk : Disk) (modname : String) : AgentState → List Line → AgentState × Option String
  | a, [] => (a, none)
  | a, x :: rest =>
      match x.fails disk fun c => (a.loaded c).isSome with
      | some err => (a, some err)
      | none => exec disk modname (a.effect disk modname x) rest

/-- {lit}`replace_table` -/
def replaceTable (a : AgentState) (dst src : Nat) : AgentState :=
  { a with contents := Function.update a.contents dst (a.contents src) }

/-- {lit}`hotfix_config` -/
def hotfixConfig (a : AgentState) (configName : Option String) (disk : Disk) :
    AgentState × Except String Unit :=
  match checkHotfixName configName hotfixConfigs with
  | .error err => (a, .error err)
  | .ok name =>
      let old := a.loaded name
      let cleared := { a with loaded := Function.update a.loaded name none }
      match disk.configs name with
      | .error err =>
          ({ cleared with loaded := Function.update cleared.loaded name old }, .error err)
      | .ok content =>
          let a := cleared.load name content
          match old, a.loaded name with
          | some (.table dst), some (.table src) =>
              let a := a.replaceTable dst src
              ({ a with loaded := Function.update a.loaded name old }, .ok ())
          | _, _ => (a, .ok ())

/-- The configurations that {lit}`hotfix_module` takes out of {lit}`package.loaded`. -/
def oldConfigs (a : AgentState) (modname : String) (reloadConfig : Bool) : List String :=
  if reloadConfig then (moduleConfigs modname).filter fun c => (a.loaded c).isSome else []

/-- The agent without the module and these configurations. -/
def unload (a : AgentState) (modname : String) (reloadConfig : Bool) : AgentState :=
  { a with loaded := fun c =>
      if c = modname ∨ c ∈ a.oldConfigs modname reloadConfig then none else a.loaded c }

/-- {lit}`hotfix_module` -/
def hotfixModule (a : AgentState) (modname : Option String) (reloadConfig : Bool) (disk : Disk) :
    AgentState × Except String Unit :=
  match checkHotfixName modname hotfixModules with
  | .error err => (a, .error err)
  | .ok name =>
      match (a.unload name reloadConfig).exec disk name (disk.modules name) with
      | (a', some err) =>
          ({ a' with loaded := fun c =>
              if c = name ∨ c ∈ a.oldConfigs name reloadConfig then a.loaded c else a'.loaded c },
            .error err)
      | (a', none) =>
          ({ a' with loaded := Function.update a'.loaded name (some .plain) }, .ok ())

end AgentState

/-! ## Requests -/

/-- A request of the hot-fix manager. -/
inductive Request where
  | config (configName : Option String)
  | module (modname : Option String) (reloadConfig : Bool)
deriving DecidableEq, Repr

/-- The reload itself. -/
def AgentState.perform (a : AgentState) (disk : Disk) : Request → AgentState × Except String Unit
  | .config name => a.hotfixConfig name disk
  | .module name reloadConfig => a.hotfixModule name reloadConfig disk

/-- The agent, the request that waits for running calls, and the answers given. -/
structure Service where
  agent : AgentState
  waiting : Option Request
  replies : List (Except String Unit)

/-- A request arrives, a request that waits looks again, or another handler does something. -/
inductive HotEvent where
  | request (r : Request)
  | wake (disk : Disk)
  | other (state : Nat) (data : String → Option Nat) (callDepth : Nat)

namespace Service

/-- {lit}`s.resp.hotfix_config` and {lit}`s.resp.hotfix_module` -/
def step (s : Service) : HotEvent → Option Service
  | .request r =>
      if s.agent.hotfixing then some { s with replies := s.replies ++ [.error "hotfixing"] }
      else some { s with agent := { s.agent with hotfixing := true }, waiting := some r }
  | .wake disk =>
      match s.waiting with
      | none => none
      | some r =>
          if s.agent.callDepth > 0 then some s
          else
            let (a, result) := s.agent.perform disk r
            some ⟨{ a with hotfixing := false }, none, s.replies ++ [result]⟩
  | .other state data callDepth =>
      some { s with agent := { s.agent with state := state, data := data, callDepth := callDepth } }

end Service

/-- Functions and tables that exist have been numbered. -/
structure AgentState.Numbered (a : AgentState) : Prop where
  client : ∀ n f, a.client n = some f → f < a.nextRef
  resp : ∀ n f, a.resp n = some f → f < a.nextRef

/-- The states of an agent that starts with these handlers and files. -/
inductive Reach (a : AgentState) : Service → Prop where
  | start : Reach a ⟨a, none, []⟩
  | step {s s' : Service} {e : HotEvent} (hs : Reach a s) (h : s.step e = some s') : Reach a s'

/-- What a reload must not change; {lit}`ok` tells whether it has succeeded. -/
def Intact (a a' : AgentState) (ok : Bool) : Prop :=
  a'.id = a.id ∧ a'.state = a.state ∧ a'.loginVersion = a.loginVersion ∧ a'.data = a.data ∧
    a'.inits = a.inits ∧ a'.hotfixing = false ∧
    (ok = false → a'.client = a.client ∧ a'.resp = a.resp ∧ a'.loaded = a.loaded)

namespace Line

/-- What a statement assigns to {lit}`s.id`, if it assigns it. -/
def id? : Line → Option (Option Nat)
  | .setId id => some id
  | .start => some none
  | _ => none

/-- What a statement assigns to {lit}`s.state`, if it assigns it. -/
def state? : Line → Option Nat
  | .setState state => some state
  | _ => none

/-- What a statement assigns to {lit}`s.login_version`, if it assigns it. -/
def loginVersion? : Line → Option (Option String)
  | .setLoginVersion version => some version
  | _ => none

/-- The field {lit}`s.data.f` after a statement. -/
def field (f : String) (value : Option Nat) : Line → Option Nat
  | .setData fields => fields.lookup f
  | .setField g new => if g = f then new else value
  | .ensure g => if g = f ∧ value = none then some 0 else value
  | _ => value

/-- Whether {lit}`s.client.n` is there after a statement about it. -/
def client? (n : String) : Line → Option Bool
  | .client m => if m = n then some true else none
  | .dropClient m => if m = n then some false else none
  | .clearClient => some false
  | _ => none

/-- Whether {lit}`s.resp.n` is there after a statement about it. -/
def resp? (n : String) : Line → Option Bool
  | .resp m => if m = n then some true else none
  | .dropResp m => if m = n then some false else none
  | .clearResp => some false
  | _ => none

end Line

/-- What the last statement of this kind says. -/
def last {α : Type} (kind : Line → Option α) (lines : List Line) : Option α :=
  lines.reverse.findSome? kind

/-- A handler that statements take away has not been there, and they do not define it. -/
def Keeps (handler : Option Nat) (said : Option Bool) : Prop :=
  ∀ defined, said = some defined → defined = false ∧ handler = none

/-- Of the statements that are executed none is {lit}`s.start`, the last one that assigns a field
of the agent's own assigns what it holds, and each field of {lit}`s.data` comes back to what it
holds.  If another statement raises an error, they define no handler, take none away and load
nothing that was not loaded before. -/
def Harmless (a : AgentState) (disk : Disk) : Request → Prop
  | .config _ => True
  | .module modname reloadConfig =>
      ∀ name, checkHotfixName modname hotfixModules = .ok name →
        let loaded := fun c => ((a.unload name reloadConfig).loaded c).isSome
        let lines := completed disk loaded (disk.modules name)
        (.start ∉ lines ∧ (∀ id, last Line.id? lines = some id → id = a.id) ∧
          (∀ state, last Line.state? lines = some state → state = a.state) ∧
          (∀ version, last Line.loginVersion? lines = some version → version = a.loginVersion) ∧
          ∀ f, lines.foldl (Line.field f) (a.data f) = a.data f) ∧
          (failure disk loaded (disk.modules name) ≠ none →
            (∀ n, Keeps (a.client n) (last (Line.client? n) lines) ∧
              Keeps (a.resp n) (last (Line.resp? n) lines)) ∧
              ∀ c, .require c ∈ lines → c ≠ name → a.loaded c ≠ none)

/-! ## What a file leaves behind -/

/-- The last of some statements is the last of the later ones, if these say anything. -/
@[simp]
theorem last_cons {α : Type} (kind : Line → Option α) (x : Line) (lines : List Line) :
    last kind (x :: lines) = (last kind lines).or (kind x) := by
  simp [last, List.findSome?_append]

@[simp]
theorem last_nil {α : Type} (kind : Line → Option α) : last kind [] = none := rfl

/-- A handler afterwards: as it was, a new function, or none. -/
def Handled (said : Option Bool) (old new : Option Nat) (lo hi : Nat) : Prop :=
  match said with
  | none => new = old
  | some true => ∃ f, new = some f ∧ lo ≤ f ∧ f < hi
  | some false => new = none

/-- The agent after these statements. -/
structure AgentState.Ran (lines : List Line) (a a' : AgentState) : Prop where
  id : a'.id = (last Line.id? lines).getD a.id
  state : a'.state = (last Line.state? lines).getD a.state
  loginVersion : a'.loginVersion = (last Line.loginVersion? lines).getD a.loginVersion
  data : ∀ f, a'.data f = lines.foldl (Line.field f) (a.data f)
  inits : a'.inits = a.inits + lines.count .start
  nextRef : a.nextRef ≤ a'.nextRef
  client : ∀ n, Handled (last (Line.client? n) lines) (a.client n) (a'.client n) a.nextRef a'.nextRef
  resp : ∀ n, Handled (last (Line.resp? n) lines) (a.resp n) (a'.resp n) a.nextRef a'.nextRef
  loaded : ∀ c, a.loaded c ≠ none → a'.loaded c = a.loaded c
  unloaded : ∀ c, a.loaded c = none → (a'.loaded c ≠ none ↔ .require c ∈ lines)

namespace AgentState

variable {a a' : AgentState} {disk : Disk} {modname : String}

theorem ran_nil (a : AgentState) : Ran [] a a := by
  constructor <;> simp [Handled]

/-- One statement. -/
theorem ran_effect (a : AgentState) {x : Line}
    (hx : (x.fails disk fun c => (a.loaded c).isSome) = none) :
    Ran [x] a (a.effect disk modname x) := by
  cases x with
  | require n =>
      simp only [Line.fails] at hx
      cases hl : a.loaded n with
      | some v =>
          have hsame : a.effect disk modname (.require n) = a := by simp only [effect, hl]
          rw [hsame]
          constructor <;> grind [last_cons, last_nil, Handled, Line.id?, Line.state?,
            Line.loginVersion?, Line.field, Line.client?, Line.resp?]
      | none =>
          simp only [hl, Option.isSome_none, Bool.false_eq_true, if_false] at hx
          cases hd : disk.configs n with
          | error err => simp [hd] at hx
          | ok content =>
              have hload : a.effect disk modname (.require n) = a.load n content := by
                simp only [effect, hl, hd]
              rw [hload]
              cases content <;> constructor <;> simp only [load] <;>
                grind [Function.update_apply, last_cons, last_nil, Handled, Line.id?, Line.state?,
                  Line.loginVersion?, Line.field, Line.client?, Line.resp?]
  | raise err => cases hx
  | ensure f =>
      by_cases hf : a.data f = none
      · constructor <;> simp only [effect, if_pos hf] <;>
          grind [Function.update_apply, last_cons, last_nil, Handled, Line.id?, Line.state?,
            Line.loginVersion?, Line.field, Line.client?, Line.resp?]
      · constructor <;> simp only [effect, if_neg hf] <;>
          grind [last_cons, last_nil, Handled, Line.id?, Line.state?,
            Line.loginVersion?, Line.field, Line.client?, Line.resp?]
  | _ =>
      constructor <;> simp only [effect] <;>
        grind [Function.update_apply, last_cons, last_nil, Handled, Line.id?, Line.state?,
          Line.loginVersion?, Line.field, Line.client?, Line.resp?]

/-- A handler after some statements and later ones. -/
theorem handled_trans {said said' : Option Bool} {old mid new : Option Nat} {lo hi hi' : Nat}
    (h : Handled said old mid lo hi) (h' : Handled said' mid new hi hi') (hlo : lo ≤ hi)
    (hhi : hi ≤ hi') : Handled (said'.or said) old new lo hi' := by
  cases said' with
  | some defined =>
      cases defined with
      | true =>
          obtain ⟨f, hf, hle, hlt⟩ := h'
          exact ⟨f, hf, Nat.le_trans hlo hle, hlt⟩
      | false => exact h'
  | none =>
      obtain rfl : new = mid := h'
      cases said with
      | none => exact h
      | some defined =>
          cases defined with
          | true =>
              obtain ⟨f, hf, hle, hlt⟩ := h
              exact ⟨f, hf, hle, Nat.lt_of_lt_of_le hlt hhi⟩
          | false => exact h

/-- A statement and those after it. -/
theorem Ran.cons {a₁ : AgentState} {x : Line} {lines : List Line} (h : Ran [x] a a₁)
    (h' : Ran lines a₁ a') : Ran (x :: lines) a a' where
  id := by
    have h1 := h.id
    have h2 := h'.id
    rw [last_cons, last_nil, Option.none_or] at h1
    rw [h2, h1, last_cons]
    cases last Line.id? lines <;> rfl
  state := by
    have h1 := h.state
    have h2 := h'.state
    rw [last_cons, last_nil, Option.none_or] at h1
    rw [h2, h1, last_cons]
    cases last Line.state? lines <;> rfl
  loginVersion := by
    have h1 := h.loginVersion
    have h2 := h'.loginVersion
    rw [last_cons, last_nil, Option.none_or] at h1
    rw [h2, h1, last_cons]
    cases last Line.loginVersion? lines <;> rfl
  data f := by
    rw [h'.data f, h.data f]
    rfl
  inits := by
    have h1 := h.inits
    have h2 := h'.inits
    rw [List.count_cons]
    rw [List.count_cons, List.count_nil] at h1
    omega
  nextRef := Nat.le_trans h.nextRef h'.nextRef
  client n := by
    have h1 := h.client n
    rw [last_cons, last_nil, Option.none_or] at h1
    rw [last_cons]
    exact handled_trans h1 (h'.client n) h.nextRef h'.nextRef
  resp n := by
    have h1 := h.resp n
    rw [last_cons, last_nil, Option.none_or] at h1
    rw [last_cons]
    exact handled_trans h1 (h'.resp n) h.nextRef h'.nextRef
  loaded c hc := by
    have h1 := h.loaded c hc
    rw [← h1]
    exact h'.loaded c (h1 ▸ hc)
  unloaded c hc := by
    have h1 := h.unloaded c hc
    rw [List.mem_cons]
    by_cases hc₁ : a₁.loaded c = none
    · rw [h'.unloaded c hc₁]
      have hx : .require c ∉ [x] := fun hx => h1.mpr hx hc₁
      rw [List.mem_singleton] at hx
      exact (or_iff_right hx).symm
    · have hx : .require c ∈ [x] := h1.mp hc₁
      rw [h'.loaded c hc₁]
      exact iff_of_true hc₁ (.inl (List.mem_singleton.mp hx))

/-- A statement that raises no error loads what it requires. -/
theorem loaded_effect (a : AgentState) {x : Line}
    (hx : (x.fails disk fun c => (a.loaded c).isSome) = none) :
    (fun c => ((a.effect disk modname x).loaded c).isSome) =
      x.loads fun c => (a.loaded c).isSome := by
  have h : Ran [x] a (a.effect disk modname x) := ran_effect a hx
  funext c
  cases hc : a.loaded c with
  | some v =>
      rw [h.loaded c (by simp [hc]), hc]
      cases x <;> simp [Line.loads, hc, Function.update_apply]
  | none =>
      rw [Bool.eq_iff_iff, Option.isSome_iff_ne_none, h.unloaded c hc]
      cases x <;> simp [Line.loads, hc, Function.update_apply]

/-- A file is executed up to the statement that raises an error. -/
theorem exec_ran (lines : List Line) (a : AgentState) :
    Ran (completed disk (fun c => (a.loaded c).isSome) lines) a
        (a.exec disk modname lines).1 ∧
      (a.exec disk modname lines).2 = failure disk (fun c => (a.loaded c).isSome) lines := by
  induction lines generalizing a with
  | nil => exact ⟨ran_nil a, rfl⟩
  | cons x rest ih =>
      unfold exec completed failure
      cases hx : x.fails disk fun c => (a.loaded c).isSome with
      | some err => exact ⟨ran_nil a, rfl⟩
      | none =>
          obtain ⟨hran, hfail⟩ := ih (a.effect disk modname x)
          rw [loaded_effect a hx] at hran hfail
          exact ⟨(ran_effect a hx).cons hran, hfail⟩

/-! ## What a reload leaves intact -/

/-- A handler afterwards is a function that exists. -/
theorem handled_lt {said : Option Bool} {old new : Option Nat} {lo hi : Nat}
    (h : Handled said old new lo hi) (hle : lo ≤ hi) (hold : ∀ f, old = some f → f < lo) (f : Nat)
    (hf : new = some f) : f < hi := by
  cases said with
  | none =>
      obtain rfl : new = old := h
      exact Nat.lt_of_lt_of_le (hold f hf) hle
  | some defined =>
      cases defined with
      | true =>
          obtain ⟨g, hg, -, hlt⟩ := h
          obtain rfl := Option.some.inj (hg.symm.trans hf)
          exact hlt
      | false =>
          obtain rfl : new = none := h
          cases hf

theorem Ran.numbered {lines : List Line} (h : Ran lines a a') (ha : a.Numbered) :
    a'.Numbered where
  client n := handled_lt (h.client n) h.nextRef (ha.client n)
  resp n := handled_lt (h.resp n) h.nextRef (ha.resp n)

/-- Nothing is assigned, or what is held already. -/
theorem getD_eq_iff {α : Type} (said : Option α) (held : α) :
    said.getD held = held ↔ ∀ new, said = some new → new = held := by
  cases said <;> simp

/-- Who the agent is and what it has. -/
theorem Ran.identity_iff {lines : List Line} (h : Ran lines a a') :
    (a'.id = a.id ∧ a'.state = a.state ∧ a'.loginVersion = a.loginVersion ∧ a'.data = a.data ∧
        a'.inits = a.inits) ↔
      .start ∉ lines ∧ (∀ id, last Line.id? lines = some id → id = a.id) ∧
        (∀ state, last Line.state? lines = some state → state = a.state) ∧
        (∀ version, last Line.loginVersion? lines = some version → version = a.loginVersion) ∧
        ∀ f, lines.foldl (Line.field f) (a.data f) = a.data f := by
  have hinits : a'.inits = a.inits ↔ .start ∉ lines := by
    rw [h.inits, Nat.add_eq_left, List.count_eq_zero]
  have hdata : a'.data = a.data ↔ ∀ f, lines.foldl (Line.field f) (a.data f) = a.data f := by
    rw [funext_iff]
    exact forall_congr' fun f => by rw [h.data f]
  rw [hinits, hdata, h.id, h.state, h.loginVersion, getD_eq_iff, getD_eq_iff, getD_eq_iff]
  tauto

/-- A function that is defined again is a new one. -/
theorem handled_eq_iff {said : Option Bool} {old new : Option Nat} {lo hi : Nat}
    (h : Handled said old new lo hi) (hold : ∀ f, old = some f → f < lo) :
    new = old ↔ Keeps old said := by
  cases said with
  | none => exact iff_of_true h fun _ hsaid => by cases hsaid
  | some defined =>
      cases defined with
      | true =>
          obtain ⟨f, hf, hle, -⟩ := h
          refine iff_of_false ?_ fun hkeeps => Bool.noConfusion (hkeeps true rfl).1
          rintro rfl
          exact absurd (hold f hf) (Nat.not_lt.mpr hle)
      | false =>
          obtain rfl : new = none := h
          constructor
          · rintro rfl defined hsaid
            exact ⟨(Option.some.inj hsaid).symm, rfl⟩
          · intro hkeeps
            exact (hkeeps false rfl).2.symm

/-- The handlers are as they were if the statements leave each of them alone. -/
theorem Ran.handlers_iff {lines : List Line} (h : Ran lines a a') (ha : a.Numbered) :
    (a'.client = a.client ∧ a'.resp = a.resp) ↔
      ∀ n, Keeps (a.client n) (last (Line.client? n) lines) ∧
        Keeps (a.resp n) (last (Line.resp? n) lines) := by
  rw [funext_iff, funext_iff, ← forall_and]
  exact forall_congr' fun n =>
    and_congr (handled_eq_iff (h.client n) (ha.client n)) (handled_eq_iff (h.resp n) (ha.resp n))

/-- What {lit}`hotfix_module` puts back is what it has taken out. -/
theorem Ran.loaded_iff {lines : List Line} {name : String} {reloadConfig : Bool}
    (h : Ran lines (a.unload name reloadConfig) a') :
    ((fun c => if c = name ∨ c ∈ a.oldConfigs name reloadConfig then a.loaded c else a'.loaded c) =
        a.loaded) ↔
      ∀ c, .require c ∈ lines → c ≠ name → a.loaded c ≠ none := by
  have hunload : ∀ c, (a.unload name reloadConfig).loaded c =
      if c = name ∨ c ∈ a.oldConfigs name reloadConfig then none else a.loaded c := fun _ => rfl
  constructor
  · intro heq c hc hname hnone
    have hold : ¬ (c = name ∨ c ∈ a.oldConfigs name reloadConfig) := by
      rintro (h | h)
      · exact hname h
      · unfold oldConfigs at h
        split at h
        · have hsome := (List.mem_filter.mp h).2
          simp [hnone] at hsome
        · cases h
    have hc' := congrFun heq c
    simp only [if_neg hold] at hc'
    have hnew := (h.unloaded c (by rw [hunload, if_neg hold, hnone])).mpr hc
    exact hnew (hc'.trans hnone)
  · intro hloaded
    funext c
    by_cases hold : c = name ∨ c ∈ a.oldConfigs name reloadConfig
    · rw [if_pos hold]
    · rw [if_neg hold]
      have hsame : (a.unload name reloadConfig).loaded c = a.loaded c := by
        rw [hunload, if_neg hold]
      by_cases hnone : a.loaded c = none
      · rw [hnone]
        by_contra hne
        exact hloaded c ((h.unloaded c (hsame.trans hnone)).mp hne) (fun h => hold (.inl h)) hnone
      · exact (h.loaded c (hsame ▸ hnone)).trans hsame

theorem hotfixModule_intact_iff (ha : a.Numbered) (modname : Option String) (reloadConfig : Bool)
    (disk : Disk) :
    Intact a { (a.hotfixModule modname reloadConfig disk).1 with hotfixing := false }
        (a.hotfixModule modname reloadConfig disk).2.isOk ↔
      Harmless a disk (.module modname reloadConfig) := by
  unfold hotfixModule
  cases hname : checkHotfixName modname hotfixModules with
  | error err =>
      simp [Intact, Harmless, hname]
  | ok name =>
      have hharmless : Harmless a disk (.module modname reloadConfig) ↔ _ :=
        ⟨fun h => h name hname, fun h n hn => by
          obtain rfl := Except.ok.inj (hname.symm.trans hn)
          exact h⟩
      rw [hharmless]
      dsimp only
      obtain ⟨hran, hfail⟩ := @exec_ran disk name (disk.modules name)
        (a.unload name reloadConfig)
      revert hran hfail
      generalize completed disk (fun c => ((a.unload name reloadConfig).loaded c).isSome)
        (disk.modules name) = lines
      generalize failure disk (fun c => ((a.unload name reloadConfig).loaded c).isSome)
        (disk.modules name) = err'
      cases (a.unload name reloadConfig).exec disk name (disk.modules name) with
      | mk a₁ err =>
          intro hran hfail
          obtain rfl : err = err' := hfail
          have hidentity := hran.identity_iff
          have hhandlers := hran.handlers_iff ⟨ha.client, ha.resp⟩
          have hloaded := hran.loaded_iff
          rw [← hloaded]
          refine Iff.trans ?_ (and_congr hidentity (imp_congr_right fun _ =>
            and_congr_left fun _ => hhandlers))
          cases err with
          | none =>
              simp only [Intact, Except.isOk, Except.toBool]
              constructor
              · rintro ⟨hid, hstate, hversion, hdata, hinits, -⟩
                exact ⟨⟨hid, hstate, hversion, hdata, hinits⟩, fun h => absurd rfl h⟩
              · rintro ⟨⟨hid, hstate, hversion, hdata, hinits⟩, -⟩
                exact ⟨hid, hstate, hversion, hdata, hinits, trivial, fun h => by cases h⟩
          | some err =>
              simp only [Intact, Except.isOk, Except.toBool]
              constructor
              · rintro ⟨hid, hstate, hversion, hdata, hinits, -, hrest⟩
                obtain ⟨hclient, hresp, hback⟩ := hrest trivial
                exact ⟨⟨hid, hstate, hversion, hdata, hinits⟩, fun _ => ⟨⟨hclient, hresp⟩, hback⟩⟩
              · rintro ⟨⟨hid, hstate, hversion, hdata, hinits⟩, hrest⟩
                obtain ⟨⟨hclient, hresp⟩, hback⟩ := hrest (by simp)
                exact ⟨hid, hstate, hversion, hdata, hinits, trivial,
                  fun _ => ⟨hclient, hresp, hback⟩⟩

/-- A configuration is taken over as a whole or not at all. -/
theorem hotfixConfig_frame (a : AgentState) (configName : Option String) (disk : Disk) :
    Intact a { (a.hotfixConfig configName disk).1 with hotfixing := false }
        (a.hotfixConfig configName disk).2.isOk ∧
      (a.hotfixConfig configName disk).1.client = a.client ∧
      (a.hotfixConfig configName disk).1.resp = a.resp ∧
      a.nextRef ≤ (a.hotfixConfig configName disk).1.nextRef := by
  unfold hotfixConfig
  split
  next => simp [Intact]
  next name hname =>
    dsimp only
    split
    next err hd =>
      refine ⟨⟨rfl, rfl, rfl, rfl, rfl, rfl, fun _ => ⟨rfl, rfl, ?_⟩⟩, rfl, rfl, Nat.le_refl _⟩
      simp
    next content hd =>
      have hload : a.nextRef ≤ (({ a with loaded := Function.update a.loaded name none } :
          AgentState).load name content).nextRef := by
        cases content with
        | none => exact Nat.le_refl _
        | some x => exact Nat.le_succ _
      split
      next =>
        refine ⟨⟨?_, ?_, ?_, ?_, ?_, rfl, fun h => by cases h⟩, ?_, ?_, hload⟩ <;>
          cases content <;> rfl
      next =>
        refine ⟨⟨?_, ?_, ?_, ?_, ?_, rfl, fun h => by cases h⟩, ?_, ?_, hload⟩ <;>
          cases content <;> rfl

theorem hotfixModule_numbered (ha : a.Numbered) (modname : Option String) (reloadConfig : Bool)
    (disk : Disk) : (a.hotfixModule modname reloadConfig disk).1.Numbered := by
  unfold hotfixModule
  split
  next => exact ha
  next name hname =>
    have hran := (@exec_ran disk name (disk.modules name)
      (a.unload name reloadConfig)).1
    have hnumbered := hran.numbered ⟨ha.client, ha.resp⟩
    split
    next h =>
      rw [h] at hnumbered
      exact ⟨hnumbered.client, hnumbered.resp⟩
    next h =>
      rw [h] at hnumbered
      exact ⟨hnumbered.client, hnumbered.resp⟩

theorem perform_numbered (ha : a.Numbered) (disk : Disk) (r : Request) :
    (a.perform disk r).1.Numbered := by
  cases r with
  | config name =>
      obtain ⟨-, hclient, hresp, hle⟩ := hotfixConfig_frame a name disk
      constructor
      · intro n f hf
        exact Nat.lt_of_lt_of_le (ha.client n f (hclient ▸ hf)) hle
      · intro n f hf
        exact Nat.lt_of_lt_of_le (ha.resp n f (hresp ▸ hf)) hle
  | module modname reloadConfig => exact hotfixModule_numbered ha modname reloadConfig disk

end AgentState

theorem step_numbered {s s' : Service} {e : HotEvent} (hs : s.agent.Numbered)
    (h : s.step e = some s') : s'.agent.Numbered := by
  cases e with
  | request r =>
      simp only [Service.step] at h
      split at h <;> obtain rfl := Option.some.inj h
      · exact hs
      · exact ⟨hs.client, hs.resp⟩
  | wake disk =>
      simp only [Service.step] at h
      split at h
      next => cases h
      next r hw =>
        split at h <;> obtain rfl := Option.some.inj h
        · exact hs
        · have hp := AgentState.perform_numbered hs disk r
          exact ⟨hp.client, hp.resp⟩
  | other state data callDepth =>
      obtain rfl := Option.some.inj h
      exact ⟨hs.client, hs.resp⟩

theorem Reach.numbered {a : AgentState} (ha : a.Numbered) {s : Service} (hs : Reach a s) :
    s.agent.Numbered := by
  induction hs with
  | start => exact ha
  | step _ h ih => exact step_numbered ih h

theorem completed_subset (disk : Disk) (loaded : String → Bool) (lines : List Line) :
    completed disk loaded lines ⊆ lines := by
  induction lines generalizing loaded with
  | nil => exact List.Subset.refl _
  | cons x rest ih =>
      unfold completed
      split
      · exact List.nil_subset _
      · exact List.cons_subset_cons x (ih _)

theorem failure_eq_none (disk : Disk) (loaded : String → Bool) {lines : List Line}
    (h : ∀ x ∈ lines, ∀ loaded, x.fails disk loaded = none) :
    failure disk loaded lines = none := by
  induction lines generalizing loaded with
  | nil => rfl
  | cons x rest ih =>
      unfold failure
      rw [h x List.mem_cons_self]
      exact ih _ fun y hy => h y (List.mem_cons_of_mem x hy)

/-- The fields of {lit}`s.data` that the files create. -/
def dataFields : List String := ["items", "achieves", "mails", "friends", "friends_pending"]

/-- A statement that defines functions, requires files or creates these fields. -/
def Line.Plain : Line → Prop
  | .start | .setId _ | .setState _ | .setLoginVersion _ | .setData _ | .setField _ _ => False
  | .ensure f => f ∈ dataFields
  | _ => True

theorem Line.Plain.id? {x : Line} (h : x.Plain) : x.id? = none := by
  cases x <;> first | rfl | cases h

theorem Line.Plain.state? {x : Line} (h : x.Plain) : x.state? = none := by
  cases x <;> first | rfl | cases h

theorem Line.Plain.loginVersion? {x : Line} (h : x.Plain) : x.loginVersion? = none := by
  cases x <;> first | rfl | cases h

theorem last_eq_none {α : Type} {kind : Line → Option α} {lines : List Line}
    (h : ∀ x ∈ lines, kind x = none) : last kind lines = none := by
  rw [last, List.findSome?_eq_none_iff]
  exact fun x hx => h x (List.mem_reverse.mp hx)

/-- Such statements leave a field alone that is there, or that no file creates. -/
theorem foldl_field {lines : List Line} (h : ∀ x ∈ lines, x.Plain) {f : String}
    {value : Option Nat} (hvalue : f ∈ dataFields → value ≠ none) :
    lines.foldl (Line.field f) value = value := by
  induction lines with
  | nil => rfl
  | cons x rest ih =>
      have hx : x.field f value = value := by
        have hplain := h x List.mem_cons_self
        cases x with
        | setData | setField => exact hplain.elim
        | ensure g =>
            unfold Line.field
            refine if_neg ?_
            rintro ⟨rfl, hnone⟩
            exact hvalue hplain hnone
        | _ => rfl
      rw [List.foldl_cons, hx]
      exact ih fun y hy => h y (List.mem_cons_of_mem x hy)

/-- As the files are, all but {lit}`match` can be loaded again. -/
theorem harmless_of_present {a : AgentState} {disk : Disk} (hmodules : disk.modules = topLines)
    (hconfigs : ∀ c, ∃ content, disk.configs c = .ok content)
    (hdata : ∀ f ∈ dataFields, a.data f ≠ none) {name : String} (hname : name ≠ "match")
    (reloadConfig : Bool) : Harmless a disk (.module (some name) reloadConfig) := by
  intro n hn
  have hmatch : n ≠ "match" := by
    rintro rfl
    unfold checkHotfixName at hn
    dsimp only at hn
    split_ifs at hn
    exact hname (Except.ok.inj hn)
  have hlines : ∀ x ∈ topLines n, x.Plain ∧ ∀ err, x ≠ .raise err := by
    unfold topLines
    rw [if_neg hmatch]
    split_ifs <;> simp [dataFields, Line.Plain]
  have hsub := completed_subset disk
    (fun c => ((a.unload n reloadConfig).loaded c).isSome) (disk.modules n)
  rw [hmodules] at hsub ⊢
  have hplain : ∀ x ∈ completed disk (fun c => ((a.unload n reloadConfig).loaded c).isSome)
      (topLines n), x.Plain := fun x hx => (hlines x (hsub hx)).1
  refine ⟨⟨fun h => (hplain _ h).elim, ?_, ?_, ?_, fun f => foldl_field hplain fun hf => hdata f hf⟩,
    fun h => absurd (failure_eq_none disk _ fun x hx loaded => ?_) h⟩
  · rw [last_eq_none fun x hx => (hplain x hx).id?]
    simp
  · rw [last_eq_none fun x hx => (hplain x hx).state?]
    simp
  · rw [last_eq_none fun x hx => (hplain x hx).loginVersion?]
    simp
  · cases x with
    | require c =>
        obtain ⟨content, hc⟩ := hconfigs c
        simp [Line.fails, hc]
    | raise err => exact absurd rfl ((hlines _ hx).2 err)
    | _ => rfl

/-- An agent in the game, with its files. -/
def ready : AgentState where
  name := "agent"
  id := some 7
  state := 1
  loginVersion := some "1"
  data := fun f => if f ∈ dataFields then some 1 else none
  client := fun _ => none
  resp := fun _ => none
  service := fun _ => none
  mailClass := 0
  loaded := fun c => if c = "item_config" then some (.table 0) else some .plain
  contents := fun _ => 0
  nextRef := 1
  inits := 2
  hotfixing := false
  callDepth := 0

/-- The files as they are. -/
def present : Disk where
  modules := topLines
  configs := fun _ => .ok (some 2)

theorem ready_numbered : ready.Numbered where
  client _ _ h := by cases h
  resp _ _ h := by cases h

/-- A request for {lit}`match` waits. -/
def matchAsked : Service where
  agent := { ready with hotfixing := true }
  waiting := some (.module (some "match") false)
  replies := []

theorem matchAsked_reach : Reach ready matchAsked :=
  .step (e := .request (.module (some "match") false)) .start rfl

end BallServer.Agent.HotReload
