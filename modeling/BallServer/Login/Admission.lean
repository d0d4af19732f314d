import BallServer.AgentMgr.Manager
import Mathlib.Data.List.Nodup

/-!
# One session for each login

A client logs in in two steps.  {lit}`login_first` keeps an SRP session under the name of the
account, {lit}`login_second` verifies the proof of the client against it and asks the agent
manager and the gateway.  The session stays in the table meanwhile.

Main results:

- Structure {lit}`LoginService.Single`: what holds when nobody comes in between.
- Theorem {lit}`one_login`: in runs in which no second proof arrives for a session that is being
  used, and in which {lit}`login_first` does not store anything under a name whose login is
  waiting, a session admits one login, and a login touches no other session.
- Theorem {lit}`two_logins`: without this condition it is not so.
-/

namespace BallServer.Login

/-- An SRP session: the account it is for, the proof it accepts and the answer to it. -/
structure ServerSession where
  playerid : String
  m1 : String
  m2 : String
deriving DecidableEq, Repr

/-- An entry of {lit}`login_session`.  The session is {lit}`false` while it is created. -/
structure Entry where
  session : Option Nat
  timer : Nat
deriving DecidableEq, Repr

/-- What is sent to the client. -/
inductive Answered where
  /-- {lit}`login_first_ok` -/
  | firstOk (salt b : String)
  /-- {lit}`login_first_fail` -/
  | firstFail (msg : String)
  /-- {lit}`login_second_ok` -/
  | secondOk (m2 token : String)
  /-- {lit}`login_second_fail` -/
  | secondFail (msg : String)
deriving DecidableEq, Repr

/-- Where a handler is suspended. -/
inductive Task where
  /-- {lit}`login_first`, in the query of salt and verifier. -/
  | loading (fd : Nat) (playerid : String)
  /-- {lit}`login_second`, in the call of {lit}`reqlogin`. -/
  | requesting (fd : Nat) (playerid : String) (session : Nat)
  /-- {lit}`login_second`, in the call of {lit}`sure_agent`. -/
  | assuring (fd : Nat) (playerid : String) (session : Nat)
deriving DecidableEq, Repr

/-- The name and the session of a {lit}`login_second` that waits. -/
def Task.verified : Task → Option (String × Nat)
  | .loading .. => none
  | .requesting _ p k => some (p, k)
  | .assuring _ p k => some (p, k)

/-- What a suspended handler is resumed with. -/
inductive Outcome where
  /-- The call has raised an error. -/
  | raised
  /-- The query has failed. -/
  | failed
  /-- There is no such account. -/
  | missing
  /-- {lit}`srp.create_session` has refused the value of the client. -/
  | refused (err : String)
  /-- {lit}`srp.create_session` has made a session. -/
  | created (salt b m1 m2 : String) (now : Nat)
  /-- {lit}`reqlogin` has returned. -/
  | requested (isok agent : Bool)
  /-- {lit}`sure_agent` has returned. -/
  | assured (isok : Bool) (token : Option String)
deriving DecidableEq, Repr

/-- The messages for the service, answers to its calls, and its timer. -/
inductive Happening where
  | loginFirst (fd : Nat) (playerid a : Option String) (now : Nat)
  | loginSecond (fd : Nat) (playerid m1 : Option String)
  | resume (h : Nat) (outcome : Outcome)
  | tick (now : Nat)
deriving DecidableEq, Repr

/-- The service.  The sessions for which {lit}`reqlogin` has succeeded are recorded under
{lit}`admitted`, which does not exist in the program. -/
structure LoginService where
  loginSession : String → Option Entry
  servers : Nat → ServerSession
  nextServer : Nat
  tasks : Nat → Option Task
  nextTask : Nat
  sent : List (Nat × Answered)
  admitted : List Nat

namespace LoginService

/-- The service when it starts. -/
def start : LoginService where
  loginSession := fun _ => none
  servers := fun _ => ⟨"", "", ""⟩
  nextServer := 0
  tasks := fun _ => none
  nextTask := 0
  sent := []
  admitted := []

/-- Answer the client. -/
def send (s : LoginService) (fd : Nat) (a : Answered) : LoginService :=
  { s with sent := s.sent ++ [(fd, a)] }

/-- Set {lit}`login_session[playerid]`. -/
def setSession (s : LoginService) (p : String) (e : Option Entry) : LoginService :=
  { s with loginSession := Function.update s.loginSession p e }

/-- A handler that is suspended. -/
def fork (s : LoginService) (x : Task) : LoginService :=
  { s with tasks := Function.update s.tasks s.nextTask (some x), nextTask := s.nextTask + 1 }

/-- A handler goes on to its next call, or ends. -/
def setTask (s : LoginService) (h : Nat) (x : Option Task) : LoginService :=
  { s with tasks := Function.update s.tasks h x }

/-- {lit}`login_first` up to the query. -/
def loginFirst (s : LoginService) (fd : Nat) (playerid a : Option String) (now : Nat) :
    LoginService :=
  match playerid, a with
  | some p, some _ =>
      match s.loginSession p with
      | some _ => s.send fd (.firstFail "正在登录中，请勿重复点击")
      | none => (s.setSession p (some ⟨none, now⟩)).fork (.loading fd p)
  | _, _ => s.send fd (.firstFail "登录参数缺失")

/-- {lit}`login_second` up to its first call.  A session that is {lit}`false` is none. -/
def loginSecond (s : LoginService) (fd : Nat) (playerid m1 : Option String) : LoginService :=
  match playerid, m1 with
  | some p, some m1 =>
      match (s.loginSession p).bind (·.session) with
      | none => s.send fd (.secondFail "服务端的验证会话不存在/正在创建")
      | some k =>
          if (s.servers k).m1 = m1 then s.fork (.requesting fd p k)
          else (s.setSession p none).send fd (.secondFail "密码错误")
  | _, _ => s.send fd (.secondFail "用户名或M1为空")

/-- {lit}`login_first` after the query. -/
def loaded (s : LoginService) (h fd : Nat) (p : String) : Outcome → Option LoginService
  | .raised => some (s.setTask h none)
  | .failed => some (((s.setTask h none).setSession p none).send fd (.firstFail "查询账号数据时出错"))
  | .missing => some (((s.setTask h none).setSession p none).send fd (.firstFail "账号不存在"))
  | .refused err =>
      some (((s.setTask h none).setSession p none).send fd
        (.firstFail ("服务器创建登录会话失败: " ++ err)))
  | .created salt b m1 m2 now =>
      some ((({ s with
        servers := Function.update s.servers s.nextServer ⟨p, m1, m2⟩
        nextServer := s.nextServer + 1 }).setTask h none).setSession p
          (some ⟨some s.nextServer, now⟩) |>.send fd (.firstOk salt b))
  | _ => none

/-- {lit}`login_second` after {lit}`reqlogin`. -/
def requested (s : LoginService) (h fd : Nat) (p : String) (k : Nat) : Outcome → Option LoginService
  | .raised => some (s.setTask h none)
  | .requested false _ =>
      some (((s.setTask h none).setSession p none).send fd (.secondFail "请求mgr失败"))
  | .requested true false =>
      some ((({ s with admitted := k :: s.admitted }).setTask h none).setSession p none |>.send fd
        (.secondFail "初始化角色代理失败"))
  | .requested true true =>
      some (({ s with admitted := k :: s.admitted }).setTask h (some (.assuring fd p k)))
  | _ => none

/-- {lit}`login_second` after {lit}`sure_agent`. -/
def assured (s : LoginService) (h fd : Nat) (p : String) (k : Nat) : Outcome → Option LoginService
  | .raised => some (s.setTask h none)
  | .assured true (some token) =>
      some (((s.setTask h none).setSession p none).send fd (.secondOk (s.servers k).m2 token))
  | .assured _ _ =>
      some (((s.setTask h none).setSession p none).send fd (.secondFail "login向gate注册失败"))
  | _ => none

/-- The rest of a handler, from the call it waits for to the next one. -/
def resume (s : LoginService) (h : Nat) (o : Outcome) : Task → Option LoginService
  | .loading fd p => s.loaded h fd p o
  | .requesting fd p k => s.requested h fd p k o
  | .assuring fd p k => s.assured h fd p k o

/-- {lit}`Timer`: entries older than ten seconds are removed. -/
def tick (s : LoginService) (now : Nat) : LoginService :=
  { s with loginSession := fun p => (s.loginSession p).filter fun e => ¬ e.timer + 10 < now }

/-- One message. -/
def step (s : LoginService) : Happening → Option LoginService
  | .loginFirst fd p a now => some (s.loginFirst fd p a now)
  | .loginSecond fd p m1 => some (s.loginSecond fd p m1)
  | .resume h o => (s.tasks h).bind (s.resume h o)
  | .tick now => some (s.tick now)

/-- A sequence of messages. -/
def run (s : LoginService) : List Happening → Option LoginService
  | [] => some s
  | e :: es => (s.step e).bind fun s => s.run es

/-- The states reached by messages that meet a condition. -/
inductive Reach (ok : LoginService → Happening → Prop) : LoginService → Prop where
  | start : Reach ok start
  | step {s s' : LoginService} {e : Happening} (hs : Reach ok s) (he : ok s e)
      (h : s.step e = some s') : Reach ok s'

theorem Reach.of_run {ok : LoginService → Happening → Prop} (hok : ∀ s e, ok s e)
    {s s' : LoginService} (hs : Reach ok s) {es : List Happening} (h : s.run es = some s') : Reach ok s' := by
  induction es generalizing s with
  | nil =>
      obtain rfl := Option.some.inj h
      exact hs
  | cons e es ih =>
      obtain ⟨s₁, h₁, h⟩ := Option.bind_eq_some_iff.mp h
      exact ih (hs.step (hok s e) h₁) h

/-- A {lit}`login_second` with this name waits, with this session. -/
def Waits (s : LoginService) (h : Nat) (p : String) (k : Nat) : Prop :=
  ∃ x, s.tasks h = some x ∧ x.verified = some (p, k)

/-- No right proof arrives for a session that a login is using; {lit}`login_first` stores
nothing under a name whose login waits; {lit}`sure_agent` does not raise an error. -/
def Apart (s : LoginService) : Happening → Prop
  | .loginFirst _ (some p) (some _) _ => s.loginSession p = none → ∀ h k, ¬ s.Waits h p k
  | .loginSecond _ (some p) (some m1) =>
      ∀ k, (s.loginSession p).bind (·.session) = some k → (s.servers k).m1 = m1 →
        ∀ h, ¬ s.Waits h p k
  | .resume h (.created ..) =>
      ∀ fd p, s.tasks h = some (.loading fd p) → ∀ i k, ¬ s.Waits i p k
  | .resume h .raised => ∀ fd p k, s.tasks h ≠ some (.assuring fd p k)
  | _ => True

/-! ## A session is used once -/

/-- A session that is in the table has admitted no login except the one that is still waiting,
and the table holds no other session under the name of a login that waits. -/
structure Single (s : LoginService) : Prop where
  task_lt : ∀ h x, s.tasks h = some x → h < s.nextTask
  entry_lt : ∀ p e k, s.loginSession p = some e → e.session = some k →
    k < s.nextServer ∧ (s.servers k).playerid = p
  waits_lt : ∀ h x p k, s.tasks h = some x → x.verified = some (p, k) →
    k < s.nextServer ∧ (s.servers k).playerid = p
  admitted_lt : ∀ k ∈ s.admitted, k < s.nextServer
  own : ∀ h x p k e, s.tasks h = some x → x.verified = some (p, k) → s.loginSession p = some e →
    e.session = some k
  alone : ∀ h x i y p k, s.tasks h = some x → x.verified = some (p, k) → s.tasks i = some y →
    y.verified = some (p, k) → h = i
  nodup : s.admitted.Nodup
  requesting : ∀ h fd p k, s.tasks h = some (.requesting fd p k) → k ∉ s.admitted
  stays : ∀ p e k, s.loginSession p = some e → e.session = some k → k ∈ s.admitted →
    ∃ h fd, s.tasks h = some (.assuring fd p k)

theorem start_single : start.Single := by
  constructor <;> simp [start]

variable {s s' : LoginService}

theorem Single.send (hs : s.Single) (fd : Nat) (a : Answered) : (s.send fd a).Single :=
  ⟨hs.task_lt, hs.entry_lt, hs.waits_lt, hs.admitted_lt, hs.own, hs.alone, hs.nodup,
    hs.requesting, hs.stays⟩

/-- Entries may always be removed. -/
theorem Single.remove (hs : s.Single) {t : String → Option Entry}
    (ht : ∀ p e, t p = some e → s.loginSession p = some e) :
    ({ s with loginSession := t } : LoginService).Single where
  task_lt := hs.task_lt
  entry_lt p e k he := hs.entry_lt p e k (ht p e he)
  waits_lt := hs.waits_lt
  admitted_lt := hs.admitted_lt
  own h x p k e hx hv he := hs.own h x p k e hx hv (ht p e he)
  alone := hs.alone
  nodup := hs.nodup
  requesting := hs.requesting
  stays p e k he := hs.stays p e k (ht p e he)

theorem Single.clear (hs : s.Single) (p : String) : (s.setSession p none).Single := by
  refine hs.remove fun q e he => ?_
  rw [Function.update_apply] at he
  split at he
  · cases he
  · exact he

/-- A handler ends.  If its session has admitted a login, the entry is gone. -/
theorem Single.finish (hs : s.Single) (h : Nat)
    (hgone : ∀ fd p k, s.tasks h = some (.assuring fd p k) →
      ∀ e, s.loginSession p = some e → e.session ≠ some k) : (s.setTask h none).Single := by
  have htask : ∀ i x, (s.setTask h none).tasks i = some x → s.tasks i = some x ∧ i ≠ h := by
    intro i x hx
    simp only [setTask, Function.update_apply] at hx
    split at hx
    · cases hx
    · exact ⟨hx, ‹_›⟩
  refine ⟨fun i x hx => hs.task_lt i x (htask i x hx).1, hs.entry_lt,
    fun i x p k hx => hs.waits_lt i x p k (htask i x hx).1, hs.admitted_lt,
    fun i x p k e hx => hs.own i x p k e (htask i x hx).1,
    fun i x j y p k hx hv hy => hs.alone i x j y p k (htask i x hx).1 hv (htask j y hy).1,
    hs.nodup, fun i fd p k hx => hs.requesting i fd p k (htask i _ hx).1,
    fun p e k he hk hin => ?_⟩
  obtain ⟨i, fd, hi⟩ := hs.stays p e k he hk hin
  have hne : i ≠ h := by
    rintro rfl
    exact hgone fd p k hi e he hk
  exact ⟨i, fd, by simp [setTask, hne, hi]⟩

/-- {lit}`login_first` starts to create a session. -/
theorem Single.loginFirst (hs : s.Single) {fd now : Nat} {playerid a : Option String}
    (hapart : Apart s (.loginFirst fd playerid a now)) :
    (s.loginFirst fd playerid a now).Single := by
  unfold LoginService.loginFirst
  split
  next p a' =>
    split
    next => exact hs.send _ _
    next hp =>
      have hnone : ∀ h x k, s.tasks h = some x → x.verified ≠ some (p, k) :=
        fun h x k hx hv => hapart hp h k ⟨x, hx, hv⟩
      have h1 := hs.task_lt
      have h2 := hs.entry_lt
      have h3 := hs.waits_lt
      have h4 := hs.own
      have h5 := hs.alone
      have h6 := hs.requesting
      have h7 := hs.stays
      have hfree : s.tasks s.nextTask = none := by
        cases hx : s.tasks s.nextTask with
        | none => rfl
        | some x => exact absurd (h1 _ x hx) (Nat.lt_irrefl _)
      have hverified : (Task.loading fd p).verified = none := rfl
      constructor <;> simp only [fork, setSession]
      · grind [Function.update_apply]
      · grind [Function.update_apply]
      · grind [Function.update_apply]
      · exact hs.admitted_lt
      · grind [Function.update_apply]
      · grind [Function.update_apply]
      · exact hs.nodup
      · grind [Function.update_apply]
      · intro q e k he hk hin
        have he : s.loginSession q = some e := by grind [Function.update_apply]
        obtain ⟨i, fd', hi⟩ := h7 q e k he hk hin
        exact ⟨i, fd', by grind [Function.update_apply]⟩
  next => exact hs.send _ _

/-- A right proof arrives for a session that nobody uses. -/
theorem Single.loginSecond (hs : s.Single) {fd : Nat} {playerid m1 : Option String}
    (hapart : Apart s (.loginSecond fd playerid m1)) :
    (s.loginSecond fd playerid m1).Single := by
  unfold LoginService.loginSecond
  split
  next p m1' =>
    split
    next => exact hs.send _ _
    next k hk =>
      split
      next hm =>
        obtain ⟨e, he, hek⟩ := Option.bind_eq_some_iff.mp hk
        have hnone : ∀ h x, s.tasks h = some x → x.verified ≠ some (p, k) :=
          fun h x hx hv => hapart k hk hm h ⟨x, hx, hv⟩
        have hnew : k ∉ s.admitted := by
          intro hin
          obtain ⟨h, fd', hh⟩ := hs.stays p e k he hek hin
          exact hnone h _ hh rfl
        have h1 := hs.task_lt
        have h2 := hs.entry_lt p e k he hek
        have h3 := hs.waits_lt
        have h4 := hs.own
        have h5 := hs.alone
        have h6 := hs.requesting
        have h7 := hs.stays
        have hfree : s.tasks s.nextTask = none := by
          cases hx : s.tasks s.nextTask with
          | none => rfl
          | some x => exact absurd (h1 _ x hx) (Nat.lt_irrefl _)
        have hverified : (Task.requesting fd p k).verified = some (p, k) := rfl
        constructor <;> simp only [fork]
        · grind [Function.update_apply]
        · exact hs.entry_lt
        · grind [Function.update_apply]
        · exact hs.admitted_lt
        · grind [Function.update_apply]
        · grind [Function.update_apply]
        · exact hs.nodup
        · grind [Function.update_apply]
        · intro q e' j he' hj hin
          obtain ⟨i, fd', hi⟩ := h7 q e' j he' hj hin
          exact ⟨i, fd', by grind [Function.update_apply]⟩
      next => exact (hs.clear p).send _ _
  next => exact hs.send _ _

/-- {lit}`login_first` stores a new session. -/
theorem Single.created (hs : s.Single) {h fd now : Nat} {p m1 m2 : String}
    (hh : s.tasks h = some (.loading fd p)) (hapart : ∀ i k, ¬ s.Waits i p k) :
    ((({ s with
      servers := Function.update s.servers s.nextServer ⟨p, m1, m2⟩
      nextServer := s.nextServer + 1 } : LoginService).setTask h none).setSession p
        (some ⟨some s.nextServer, now⟩)).Single := by
  have hnone : ∀ i x k, s.tasks i = some x → x.verified ≠ some (p, k) :=
    fun i x k hx hv => hapart i k ⟨x, hx, hv⟩
  have h1 := hs.task_lt
  have h2 := hs.entry_lt
  have h3 := hs.waits_lt
  have h4 := hs.own
  have h5 := hs.alone
  have h6 := hs.requesting
  have h7 := hs.stays
  have h8 := hs.admitted_lt
  constructor <;> simp only [setTask, setSession]
  · grind [Function.update_apply]
  · grind [Function.update_apply]
  · grind [Function.update_apply]
  · grind
  · grind [Function.update_apply]
  · grind [Function.update_apply]
  · exact hs.nodup
  · grind [Function.update_apply]
  · intro q e k he hk hin
    by_cases hq : q = p
    · subst hq
      rw [Function.update_self] at he
      obtain rfl := Option.some.inj he
      obtain rfl := Option.some.inj hk
      exact absurd (h8 _ hin) (Nat.lt_irrefl _)
    · rw [Function.update_of_ne hq] at he
      obtain ⟨i, fd', hi⟩ := h7 q e k he hk hin
      refine ⟨i, fd', ?_⟩
      grind [Function.update_apply]

/-- {lit}`reqlogin` has succeeded. -/
theorem Single.admit (hs : s.Single) {h fd : Nat} {p : String} {k : Nat}
    (hh : s.tasks h = some (.requesting fd p k)) :
    (({ s with admitted := k :: s.admitted } : LoginService).setTask h
      (some (.assuring fd p k))).Single := by
  have h1 := hs.task_lt
  have h3 := hs.waits_lt
  have h4 := hs.own
  have h5 := hs.alone
  have h6 := hs.requesting
  have h7 := hs.stays
  have hold : (Task.requesting fd p k).verified = some (p, k) := rfl
  have hnew : (Task.assuring fd p k).verified = some (p, k) := rfl
  have hk := h3 h _ p k hh rfl
  constructor <;> simp only [setTask]
  · grind [Function.update_apply]
  · exact hs.entry_lt
  · grind [Function.update_apply]
  · intro j hj
    rcases List.mem_cons.mp hj with rfl | hj
    · exact hk.1
    · exact hs.admitted_lt j hj
  · grind [Function.update_apply]
  · grind [Function.update_apply]
  · exact List.nodup_cons.mpr ⟨h6 h fd p k hh, hs.nodup⟩
  · intro i fd' q j hi hin
    rw [Function.update_apply] at hi
    split at hi
    · cases hi
    next hih =>
      rcases List.mem_cons.mp hin with rfl | hin
      · -- another login of the same session
        obtain rfl : q = p := ((h3 i _ q j hi rfl).2).symm.trans hk.2
        exact hih (h5 i _ h _ q j hi rfl hh rfl)
      · exact h6 i fd' q j hi hin
  · intro q e j he hj hin
    rcases List.mem_cons.mp hin with rfl | hin
    · obtain rfl : q = p := ((hs.entry_lt q e j he hj).2).symm.trans hk.2
      exact ⟨h, fd, by simp⟩
    · obtain ⟨i, fd', hi⟩ := h7 q e j he hj hin
      refine ⟨i, fd', ?_⟩
      grind [Function.update_apply]

/-- A login is over, its entry removed. -/
theorem Single.leave (hs : s.Single) (h : Nat) {p : String} {x : Task} (hx : s.tasks h = some x)
    (hp : ∀ fd q k, x = .assuring fd q k → q = p) :
    ((s.setTask h none).setSession p none).Single := by
  refine Single.finish (s := s.setSession p none) (hs.clear p) h fun fd q k hq e he => ?_
  have hq : s.tasks h = some (.assuring fd q k) := hq
  obtain rfl := hp fd q k (Option.some.inj (hx.symm.trans hq))
  simp [setSession] at he

theorem step_single (hs : s.Single) {e : Happening} (hapart : Apart s e)
    (h : s.step e = some s') : s'.Single := by
  cases e with
  | loginFirst fd p a now =>
      obtain rfl := Option.some.inj h
      exact hs.loginFirst hapart
  | loginSecond fd p m1 =>
      obtain rfl := Option.some.inj h
      exact hs.loginSecond hapart
  | tick now =>
      obtain rfl := Option.some.inj h
      exact hs.remove fun p e he => (Option.filter_eq_some_iff.mp he).1
  | resume i o =>
      obtain ⟨x, hx, h⟩ := Option.bind_eq_some_iff.mp h
      cases x with
      | loading fd p =>
          have hleave := hs.leave i hx (p := p) (by simp)
          cases o <;>
            simp only [LoginService.resume, loaded, Option.some.injEq, reduceCtorEq] at h <;>
            subst h
          case raised => exact hs.finish i (by simp [hx])
          case failed => exact hleave.send _ _
          case missing => exact hleave.send _ _
          case refused => exact hleave.send _ _
          case created => exact (hs.created hx (hapart fd p hx)).send _ _
      | requesting fd p k =>
          have hleave := hs.leave i hx (p := p) (by simp)
          rcases o with _ | _ | _ | _ | _ | ⟨isok, agent⟩ | _ <;>
            simp only [LoginService.resume, requested, Option.some.injEq, reduceCtorEq] at h
          case raised =>
            subst h
            exact hs.finish i (by simp [hx])
          case requested =>
            cases isok
            · simp only [Option.some.injEq] at h
              subst h
              exact hleave.send _ _
            · have hadmitted := hs.admit hx
              cases agent
              · simp only [Option.some.injEq] at h
                subst h
                have h' := (hadmitted.leave i (p := p) (x := .assuring fd p k) (by simp [setTask])
                  (by simp)).send fd (.secondFail "初始化角色代理失败")
                simpa [setTask, setSession, LoginService.send] using h'
              · simp only [Option.some.injEq] at h
                subst h
                exact hadmitted
      | assuring fd p k =>
          have hleave := hs.leave i hx (p := p) (by simp)
          rcases o with _ | _ | _ | _ | _ | _ | ⟨isok, token⟩ <;>
            simp only [LoginService.resume, assured, Option.some.injEq, reduceCtorEq] at h
          case raised => exact absurd hx (hapart fd p k)
          case assured =>
            rcases isok with _ | _ <;> rcases token with _ | token <;>
              simp only [Option.some.injEq] at h <;> subst h <;> exact hleave.send _ _

theorem Reach.single (h : Reach Apart s) : s.Single := by
  induction h with
  | start => exact start_single
  | step _ he h ih => exact step_single ih he h

end LoginService

open LoginService

/-- In runs in which no right proof arrives for a session that a login is using, in which
{lit}`login_first` stores nothing under a name whose login waits, and in which
{lit}`sure_agent` raises no error, a session admits at most one login, and under the name of a
login that waits there is its own session or none, so that it never ends on another one. -/
theorem one_login (s : LoginService) (h : Reach Apart s) :
    s.admitted.Nodup ∧ ∀ i p k, s.Waits i p k → ∀ e, s.loginSession p = some e →
      e.session = some k := by
  have hs := h.single
  refine ⟨hs.nodup, fun i p k hw e he => ?_⟩
  obtain ⟨x, hx, hv⟩ := hw
  exact hs.own i x p k e hx hv he

/-- The service after some messages. -/
def after (es : List Happening) : LoginService := (start.run es).getD start

theorem reach_after {es : List Happening} (h : (start.run es).isSome = true) :
    Reach (fun _ _ => True) (after es) := by
  obtain ⟨s, hs⟩ := Option.isSome_iff_exists.mp h
  have hafter : after es = s := by rw [after, hs, Option.getD_some]
  rw [hafter]
  exact .of_run (fun _ _ => trivial) .start hs

/-- A client asks for a session. -/
def asked : List Happening :=
  [.loginFirst 3 (some "7") (some "a") 0, .resume 0 (.created "salt" "b" "m1" "m2" 0)]

/-- A {lit}`login_second` with this name waits. -/
def LoginService.waiting (s : LoginService) (p : String) : Bool :=
  (List.range s.nextTask).any fun h =>
    (s.tasks h).any fun x => x.verified.any fun v => v.1 = p

theorem not_waits {s : LoginService} (hs : s.Single) {p : String} (h : s.waiting p = false)
    (i k : Nat) : ¬ s.Waits i p k := by
  rintro ⟨x, hx, hv⟩
  have : s.waiting p = true := by
    refine List.any_eq_true.mpr ⟨i, List.mem_range.mpr (hs.task_lt i x hx), ?_⟩
    rw [hx]
    simp [hv]
  rw [h] at this
  cases this

/-- A message under whose name no login waits. -/
def LoginService.quiet (s : LoginService) : Happening → Bool
  | .loginFirst _ (some p) _ _ => !s.waiting p
  | .loginSecond _ (some p) _ => !s.waiting p
  | .resume h (.created ..) =>
      match s.tasks h with
      | some (.loading _ p) => !s.waiting p
      | _ => true
  | .resume _ .raised => false
  | _ => true

theorem apart_of_quiet {s : LoginService} (hs : s.Single) {e : Happening}
    (h : s.quiet e = true) : s.Apart e := by
  unfold LoginService.Apart
  split
  next fd p a now => exact fun _ => not_waits hs (by simpa [LoginService.quiet] using h)
  next fd p m1 =>
    exact fun k _ _ i => not_waits hs (by simpa [LoginService.quiet] using h) i k
  next i salt b m1 m2 now =>
    intro fd p hi
    rw [LoginService.quiet, hi] at h
    exact not_waits hs (by simpa using h)
  next => cases h
  next => trivial

/-- Such messages, one after the other. -/
def LoginService.play (s : LoginService) : List Happening → Option LoginService
  | [] => some s
  | e :: es => if s.quiet e then (s.step e).bind fun s => s.play es else none

theorem LoginService.Reach.play {s s' : LoginService} {es : List Happening}
    (hr : Reach Apart s) (h : s.play es = some s') : Reach Apart s' := by
  induction es generalizing s with
  | nil => exact Option.some.inj h ▸ hr
  | cons e es ih =>
      rw [LoginService.play] at h
      split_ifs at h with hquiet
      obtain ⟨t, ht, h⟩ := Option.bind_eq_some_iff.mp h
      exact ih (hr.step (apart_of_quiet hr.single hquiet) ht) h

/-- Two clients log in at the same time; a third one asks for the first name and is refused, and
the first one sends its proof again when it has logged in. -/
def crossing : List Happening :=
  [.loginFirst 3 (some "7") (some "a") 0, .loginFirst 4 (some "8") (some "a") 0,
    .loginFirst 5 (some "7") (some "a") 1, .resume 1 (.created "salt" "b" "n1" "n2" 1),
    .resume 0 (.created "salt" "b" "m1" "m2" 1), .loginSecond 3 (some "7") (some "m1"),
    .loginSecond 4 (some "8") (some "n1"), .resume 3 (.requested true true),
    .resume 2 (.requested true true), .tick 5, .resume 2 (.assured true (some "token")),
    .loginSecond 3 (some "7") (some "m1")]

/-- The second login still waits for the gateway. -/
theorem one_login_crossing : ∃ s : LoginService, start.play crossing = some s ∧
    s.admitted = [1, 0] ∧ s.tasks 3 = some (.assuring 4 "8" 0) ∧ s.admitted.Nodup ∧
      ∀ i p k, s.Waits i p k → ∀ e, s.loginSession p = some e → e.session = some k := by
  obtain ⟨s, hplay⟩ := Option.isSome_iff_exists.mp
    (show (start.play crossing).isSome = true by decide)
  have hend : (start.play crossing).map (fun s => (s.admitted, s.tasks 3)) =
      some ([1, 0], some (.assuring 4 "8" 0)) := by
    decide
  rw [hplay, Option.map_some, Option.some.injEq, Prod.mk.injEq] at hend
  exact ⟨s, hplay, hend.1, hend.2, one_login s (LoginService.Reach.start.play hplay)⟩

/-- The same proof arrives again while the gateway is asked, and {lit}`reqlogin` succeeds again:
the agent manager makes a second agent then.  Or the timer removes the entry of a login that
waits, and another {lit}`login_first` stores one. -/
theorem two_logins :
    (¬ ∀ s, Reach (fun _ _ => True) s → s.admitted.Nodup) ∧
    (¬ ∀ s, Reach (fun _ _ => True) s → ∀ i p k, s.Waits i p k →
      ∀ e, s.loginSession p = some e → e.session = some k) ∧
    (AgentMgr.Manager.start.run [.reqlogin 7 1 5, .resume 0 (.agent true), .confirmLogin 7 1 true,
      .reqlogin 7 1 5, .resume 2 .done, .resume 2 .done, .resume 2 (.agent true)]).map
        (fun m => (m.created 0, m.created 1)) = some (some 7, some 7) := by
  refine ⟨fun h => ?_, fun h => ?_, by decide⟩
  · have hr : Reach (fun _ _ => True) (after (asked ++ [.loginSecond 3 (some "7") (some "m1"),
        .resume 1 (.requested true true), .loginSecond 3 (some "7") (some "m1"),
        .resume 2 (.requested true true)])) := reach_after rfl
    exact absurd (h _ hr) (by decide)
  · have hr : Reach (fun _ _ => True) (after (asked ++ [.loginSecond 3 (some "7") (some "m1"),
        .tick 11, .loginFirst 4 (some "7") (some "a") 11])) := reach_after rfl
    have hown := h _ hr 1 "7" 0 ⟨.requesting 3 "7" 0, by decide, rfl⟩ ⟨none, 11⟩ (by decide)
    cases hown

end BallServer.Login
