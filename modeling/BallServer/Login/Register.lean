import BallServer.Sql.Session

/-!
# Registration

{lit}`s.client.register` of the login service stores an account and its first role data in
one transaction.  All registrations share the connection of the service.

Main results:

- Definition {lit}`register`: {lit}`s.client.register` between two queries.
- Definition {lit}`Steady`: no transaction is started inside that of another registration,
  and no {lit}`ROLLBACK` fails that leaves a name with one of its two rows.
- Theorem {lit}`register_atomic`: then a name has both rows or none, and a registration
  that was answered with {lit}`0` has its own.
- Theorem {lit}`register_mixed`: two registrations can end each other's transaction.
-/

namespace BallServer.Login

open Sql

/-- A row of {lit}`login_message`. -/
structure Account where
  salt : String
  verifier : String
deriving DecidableEq, Repr

/-- {lit}`role_data`, a row of {lit}`role_message`. -/
structure RoleData where
  coin : Nat
  level : Nat
  exp : Nat
  vip_level : Nat
  rank_score : Nat
deriving DecidableEq, Repr

/-- The role data of a new account. -/
def newRole : RoleData where
  coin := 0
  level := 1
  exp := 0
  vip_level := 0
  rank_score := 1000

/-- The tables, by their unique keys. -/
structure Tables where
  login : String → Option Account
  role : String → Option RoleData

/-- {lit}`insert into login_message`. -/
def Tables.insertLogin (d : Tables) (name : String) (a : Account) : Option Tables :=
  if (d.login name).isSome then none
  else some { d with login := Function.update d.login name (some a) }

/-- {lit}`insert into role_message`. -/
def Tables.insertRole (d : Tables) (name : String) (x : RoleData) : Option Tables :=
  if (d.role name).isSome then none
  else some { d with role := Function.update d.role name (some x) }

/-- The answer to a request. -/
structure Reply where
  code : Nat
  msg : String
deriving DecidableEq, Repr

/-- {lit}`register_ok`. -/
def registerOk : Reply := ⟨0, "注册成功"⟩

/-- {lit}`register_fail`. -/
def registerFail (msg : String) : Reply := ⟨1, msg⟩

/-- What {lit}`save_register_message` waits for, and how a request is over. -/
inductive Stage where
  | selecting
  | starting
  | insertingLogin
  | insertingRole
  | committing
  | rollingBack (err : String)
  | returning (reply : Reply)
  | returned (reply : Reply)
  | raised
deriving DecidableEq, Repr

/-- A registration. -/
structure Request where
  playerid : String
  account : Account
  stage : Stage
deriving DecidableEq, Repr

/-- The message of a client; a field may be missing. -/
structure Msg where
  playerid : Option String
  salt : Option String
  verifier : Option String
deriving DecidableEq, Repr

/-- Up to the first query; {lit}`quote_sql_str` raises on a missing field. -/
def enter (m : Msg) : Request :=
  match m.playerid, m.salt, m.verifier with
  | some playerid, some salt, some verifier => ⟨playerid, ⟨salt, verifier⟩, .selecting⟩
  | _, _, _ => ⟨"", ⟨"", ""⟩, .raised⟩

/-- The statement a request has sent. -/
def stmt (r : Request) : Option (Stmt Tables) :=
  match r.stage with
  | .selecting => some .read
  | .starting => some .start
  | .insertingLogin => some (.write fun d => d.insertLogin r.playerid r.account)
  | .insertingRole => some (.write fun d => d.insertRole r.playerid newRole)
  | .committing => some .commit
  | .rollingBack _ => some .rollback
  | .returning _ => some .wait
  | .returned _ => none
  | .raised => none

/-- {lit}`save_register_message` goes on with an answer. -/
def nextStage (r : Request) (d : Tables) (ok : Bool) : Stage :=
  match r.stage with
  | .selecting =>
      if !ok then .returning (registerFail "查询玩家账号信息时失败")
      else if (d.login r.playerid).isSome then .returning (registerFail "账号已存在")
      else .starting
  | .starting => if ok then .insertingLogin else .returning (registerFail "事务开启失败")
  | .insertingLogin => if ok then .insertingRole else .rollingBack "向数据库注册账号失败"
  | .insertingRole => if ok then .committing else .rollingBack "向数据库注册角色数据失败"
  | .committing => if ok then .returning registerOk else .rollingBack "注册失败: 提交事务错误"
  | .rollingBack err => .returning (registerFail err)
  | .returning reply => .returned reply
  | x => x

/-- {lit}`s.client.register`. -/
def register : Client Msg Unit Request Tables where
  enter := fun _ m => enter m
  stmt := fun r _ => stmt r
  next := fun r _ d ok => { r with stage := nextStage r d ok }
  raised := fun r =>
    match r.stage with
    | .returned _ => r
    | _ => { r with stage := .raised }

/-- Between {lit}`START TRANSACTION` and the end of the transaction. -/
def InTx (r : Request) : Prop :=
  match r.stage with
  | .insertingLogin => True
  | .insertingRole => True
  | .committing => True
  | .rollingBack _ => True
  | _ => False

/-- The request is over. -/
def Request.Over (r : Request) : Prop :=
  r.stage = .raised ∨ ∃ reply, r.stage = .returned reply

theorem brackets : Session.Brackets register InTx where
  enter := by
    intro _ m
    simp only [register, enter]
    split <;> exact id
  raised := by
    intro r h
    cases hst : r.stage <;> simp [register, InTx, hst] at h
  outside := by
    intro r e q hout hq
    cases hst : r.stage <;> simp_all [register, stmt, InTx]
  opens := by
    intro r e d b hout hin
    by_cases hl : (d.login r.playerid).isSome <;> cases hst : r.stage <;> cases b <;>
      simp_all [register, stmt, nextStage, InTx]

/-- A name has both rows or none. -/
def Tables.Balanced (d : Tables) : Prop :=
  ∀ name, (d.login name).isSome = (d.role name).isSome

/-- The rows of a registration are there. -/
def Tables.Holds (d : Tables) (r : Request) : Prop :=
  d.login r.playerid = some r.account ∧ d.role r.playerid = some newRole

/-- No transaction is started inside that of another request, and no {lit}`ROLLBACK` fails
that leaves a name with one row. -/
def Steady (s : Session Request Tables) (ev : Event Msg Unit) : Prop :=
  s.Serial register InTx ev ∧ ∀ i r err, ev = .answer i () .error → s.requests i = some r →
    r.stage = .rollingBack err → s.conn.view.Balanced

/-- A name has both rows or none when all requests are over, and a request that was answered
with {lit}`0` has its own rows. -/
def Atomic (s : Session Request Tables) : Prop :=
  ((∀ i r, s.requests i = some r → r.Over) → s.conn.committed.Balanced) ∧
    ∀ i r reply, s.requests i = some r → r.stage = .returned reply → reply.code = 0 →
      s.conn.committed.Holds r

/-! ## A steady run -/

/-- Rows stay. -/
structure Tables.Extends (d d' : Tables) : Prop where
  login : ∀ name a, d.login name = some a → d'.login name = some a
  role : ∀ name x, d.role name = some x → d'.role name = some x

@[refl] theorem Tables.Extends.refl (d : Tables) : d.Extends d :=
  ⟨fun _ _ => id, fun _ _ => id⟩

theorem Tables.Extends.trans {a b c : Tables} (h : a.Extends b) (h' : b.Extends c) : a.Extends c :=
  ⟨fun n x hx => h'.login n x (h.login n x hx), fun n x hx => h'.role n x (h.role n x hx)⟩

theorem Tables.Extends.holds {d d' : Tables} (h : d.Extends d') {r : Request} (hr : d.Holds r) :
    d'.Holds r :=
  ⟨h.login _ _ hr.1, h.role _ _ hr.2⟩

/-- What holds of the open transaction of a request, or of the rows it has stored. -/
def Own (r : Request) (c : Connection Tables) : Prop :=
  match r.stage with
  | .insertingLogin => ∃ w, c.working = some w ∧ w.Balanced
  | .insertingRole => ∃ w, c.working = some w ∧ w.login r.playerid = some r.account ∧
      w.role r.playerid = none ∧
      ∀ name, name ≠ r.playerid → (w.login name).isSome = (w.role name).isSome
  | .committing => ∃ w, c.working = some w ∧ w.Balanced ∧ w.Holds r
  | .returning reply => reply.code = 0 → c.committed.Holds r
  | .returned reply => reply.code = 0 → c.committed.Holds r
  | _ => True

/-- What holds in a steady run. -/
structure Inv (s : Session Request Tables) : Prop where
  exclusive : s.Exclusive InTx
  committed : s.conn.committed.Balanced
  grows : s.conn.committed.Extends s.conn.view
  idle : (∀ i r, s.requests i = some r → ¬ InTx r) → s.conn.view.Balanced
  own : ∀ i r, s.requests i = some r → Own r s.conn

theorem start_inv {d : Tables} (hd : d.Balanced) : Inv (Session.start d) where
  exclusive := Session.start_exclusive d
  committed := hd
  grows := .refl d
  idle := fun _ => hd
  own := nofun

/-- Rows of a request that is over stay. -/
theorem own_of_extends {r : Request} {c c' : Connection Tables} (hout : ¬ InTx r)
    (h : c.committed.Extends c'.committed) (hr : Own r c) : Own r c' := by
  unfold Own at hr ⊢
  unfold InTx at hout
  split at hr <;> simp_all
  · exact fun hcode => h.holds (hr hcode)
  · exact fun hcode => h.holds (hr hcode)

/-- What a step of a request leaves. -/
structure Leaves (c c' : Connection Tables) (r' : Request) : Prop where
  committed : c'.committed.Balanced
  keeps : c.committed.Extends c'.committed
  grows : c'.committed.Extends c'.view
  own : Own r' c'

theorem Tables.insertLogin_eq {d d' : Tables} {name : String} {a : Account}
    (h : d.insertLogin name a = some d') :
    d.login name = none ∧ d' = { d with login := Function.update d.login name (some a) } := by
  unfold insertLogin at h
  split at h
  next => cases h
  next hn => exact ⟨by simpa using hn, (Option.some.inj h).symm⟩

theorem Tables.insertRole_eq {d d' : Tables} {name : String} {x : RoleData}
    (h : d.insertRole name x = some d') :
    d.role name = none ∧ d' = { d with role := Function.update d.role name (some x) } := by
  unfold insertRole at h
  split at h
  next => cases h
  next hn => exact ⟨by simpa using hn, (Option.some.inj h).symm⟩

theorem Tables.extends_insertLogin {d : Tables} {name : String} (a : Account)
    (h : d.login name = none) :
    d.Extends { d with login := Function.update d.login name (some a) } := by
  refine ⟨fun n x hx => ?_, fun n x hx => hx⟩
  have hne : n ≠ name := by
    rintro rfl
    cases h.symm.trans hx
  simpa [hne] using hx

theorem Tables.extends_insertRole {d : Tables} {name : String} (x : RoleData)
    (h : d.role name = none) :
    d.Extends { d with role := Function.update d.role name (some x) } := by
  refine ⟨fun n x hx => hx, fun n x hx => ?_⟩
  have hne : n ≠ name := by
    rintro rfl
    cases h.symm.trans hx
  simpa [hne] using hx

/-- A statement that fails leaves the tables to a request that is not in its transaction any
more, or will roll back. -/
theorem Leaves.fails {s : Session Request Tables} (hs : Inv s) {c : Connection Tables}
    (hc : c = s.conn ∨ c = s.conn.abort) {r' : Request} (hown : Own r' c) :
    Leaves s.conn c r' := by
  rcases hc with rfl | rfl
  · exact ⟨hs.committed, .refl _, hs.grows, hown⟩
  · exact ⟨hs.committed, .refl _, .refl _, hown⟩

/-- A failure is not answered with {lit}`0`. -/
theorem own_fail {r : Request} {c : Connection Tables} {msg : String}
    (h : r.stage = .returning (registerFail msg)) : Own r c := by
  simp [Own, h, registerFail]

variable {s s' : Session Request Tables}

theorem leaves (hs : Inv s) {i : Nat} {r : Request} {q : Stmt Tables} {c : Connection Tables}
    {b : Bool} (hr : s.requests i = some r) (hq : stmt r = some q) (hends : s.Ends q c b)
    (hidle : r.stage = .starting → b = true → s.conn.view.Balanced) :
    Leaves s.conn c (register.next r () s.conn.view b) := by
  have hown := hs.own i r hr
  cases hst : r.stage with
  | selecting =>
      simp only [stmt, hst, Option.some.injEq] at hq
      refine .fails hs (.inl (hends.conn_eq (.inr hq.symm))) ?_
      simp only [register, nextStage, hst]
      cases b with
      | false => exact own_fail rfl
      | true =>
          by_cases hl : (s.conn.view.login r.playerid).isSome <;>
            simp [hl, Own, registerFail]
  | starting =>
      simp only [stmt, hst, Option.some.injEq] at hq
      subst hq
      cases b with
      | false =>
          refine .fails hs (hends.failed) ?_
          simp only [register, nextStage, hst]
          exact own_fail rfl
      | true =>
          have hview := hidle hst rfl
          obtain rfl := Option.some.inj hends.succeeded
          refine ⟨hview, hs.grows, .refl _, ?_⟩
          simp only [register, nextStage, hst]
          exact ⟨_, rfl, hview⟩
  | insertingLogin =>
      simp only [stmt, hst, Option.some.injEq] at hq
      subst hq
      simp only [Own, hst] at hown
      obtain ⟨w, hw, hbal⟩ := hown
      cases b with
      | false =>
          refine .fails hs (hends.failed) ?_
          simp [register, nextStage, hst, Own]
      | true =>
          have hc := hends.succeeded
          simp only [Connection.exec, hw, Option.map_eq_some_iff] at hc
          obtain ⟨w', hw', rfl⟩ := hc
          obtain ⟨hnew, rfl⟩ := Tables.insertLogin_eq hw'
          have hext := Tables.extends_insertLogin r.account hnew
          have hgrows : s.conn.committed.Extends w := by simpa [Connection.view, hw] using hs.grows
          refine ⟨hs.committed, .refl _, hgrows.trans hext, ?_⟩
          simp only [register, nextStage, hst]
          refine ⟨_, rfl, Function.update_self .., ?_, fun name hne => ?_⟩
          · have := hbal r.playerid
            rw [hnew] at this
            simpa using this.symm
          · simpa [hne] using hbal name
  | insertingRole =>
      simp only [stmt, hst, Option.some.injEq] at hq
      subst hq
      simp only [Own, hst] at hown
      obtain ⟨w, hw, hlogin, hrole, hbal⟩ := hown
      cases b with
      | false =>
          refine .fails hs (hends.failed) ?_
          simp [register, nextStage, hst, Own]
      | true =>
          have hc := hends.succeeded
          simp only [Connection.exec, hw, Option.map_eq_some_iff] at hc
          obtain ⟨w', hw', rfl⟩ := hc
          obtain ⟨hnew, rfl⟩ := Tables.insertRole_eq hw'
          have hext := Tables.extends_insertRole newRole hnew
          have hgrows : s.conn.committed.Extends w := by simpa [Connection.view, hw] using hs.grows
          refine ⟨hs.committed, .refl _, hgrows.trans hext, ?_⟩
          simp only [register, nextStage, hst]
          refine ⟨_, rfl, fun name => ?_, hlogin, Function.update_self ..⟩
          by_cases hne : name = r.playerid
          · subst hne
            simp [hlogin]
          · simpa [hne] using hbal name hne
  | committing =>
      simp only [stmt, hst, Option.some.injEq] at hq
      subst hq
      simp only [Own, hst] at hown
      obtain ⟨w, hw, hbal, hholds⟩ := hown
      cases b with
      | false =>
          refine .fails hs (hends.failed) ?_
          simp [register, nextStage, hst, Own]
      | true =>
          obtain rfl := Option.some.inj hends.succeeded
          have hview : s.conn.view = w := by simp [Connection.view, hw]
          refine ⟨hview ▸ hbal, hs.grows, .refl _, ?_⟩
          simp only [register, nextStage, hst]
          exact fun _ => hview ▸ hholds
  | rollingBack err =>
      simp only [stmt, hst, Option.some.injEq] at hq
      subst hq
      have hown' : Own (register.next r () s.conn.view b) c := by
        simp only [register, nextStage, hst]
        exact own_fail rfl
      cases b with
      | false => exact .fails hs (hends.failed) hown'
      | true =>
          obtain rfl := Option.some.inj hends.succeeded
          exact ⟨hs.committed, .refl _, .refl _, hown'⟩
  | returning reply =>
      simp only [stmt, hst, Option.some.injEq] at hq
      obtain rfl := hends.conn_eq (.inl hq.symm)
      refine .fails hs (.inl rfl) ?_
      simp only [Own, hst] at hown
      simp only [register, nextStage, hst]
      exact hown
  | returned reply => simp [stmt, hst] at hq
  | raised => simp [stmt, hst] at hq

/-- A request that leaves its transaction leaves the tables balanced. -/
theorem view_balanced {r : Request} {q : Stmt Tables} {c : Connection Tables} {b : Bool} (hq : stmt r = some q)
    (hends : s.Ends q c b) (hc : c.committed.Balanced)
    (hout : ¬ InTx (register.next r () s.conn.view b))
    (hidle : ¬ InTx r → s.conn.view.Balanced)
    (hroll : ∀ err, r.stage = .rollingBack err → c = s.conn → s.conn.view.Balanced) :
    c.view.Balanced := by
  have hsame : ¬ InTx r → c = s.conn → c.view.Balanced := by
    rintro hr rfl
    exact hidle hr
  cases hst : r.stage with
  | selecting =>
      simp only [stmt, hst, Option.some.injEq] at hq
      exact hsame (by simp [InTx, hst]) (hends.conn_eq (.inr hq.symm))
  | starting =>
      simp only [stmt, hst, Option.some.injEq] at hq
      subst hq
      cases b with
      | true => simp [register, nextStage, hst, InTx] at hout
      | false =>
          rcases hends.failed with rfl | rfl
          · exact hsame (by simp [InTx, hst]) rfl
          · exact hc
  | insertingLogin => cases b <;> simp [register, nextStage, hst, InTx] at hout
  | insertingRole => cases b <;> simp [register, nextStage, hst, InTx] at hout
  | committing =>
      simp only [stmt, hst, Option.some.injEq] at hq
      subst hq
      cases b with
      | true =>
          obtain rfl := Option.some.inj hends.succeeded
          exact hc
      | false => simp [register, nextStage, hst, InTx] at hout
  | rollingBack err =>
      simp only [stmt, hst, Option.some.injEq] at hq
      subst hq
      cases b with
      | true =>
          obtain rfl := Option.some.inj hends.succeeded
          exact hc
      | false =>
          rcases hends.failed with rfl | rfl
          · exact hroll err hst rfl
          · exact hc
  | returning reply =>
      simp only [stmt, hst, Option.some.injEq] at hq
      exact hsame (by simp [InTx, hst]) (hends.conn_eq (.inl hq.symm))
  | returned reply => simp [stmt, hst] at hq
  | raised => simp [stmt, hst] at hq

theorem own_enter (m : Msg) (c : Connection Tables) : Own (enter m) c := by
  unfold enter
  split <;> simp [Own]

theorem step_inv {ev : Event Msg Unit} (hs : Inv s) (hev : Steady s ev)
    (h : s.step register ev = some s') : Inv s' := by
  have hexcl := Session.step_exclusive brackets hs.exclusive hev.1 h
  cases ev with
  | call m =>
      obtain ⟨hconn, hnew, hold, hnone⟩ := Session.requests_call hs.exclusive h
      have hne : ∀ i r, s.requests i = some r → i ≠ s.calls := by
        rintro i r hr rfl
        cases hnone.symm.trans hr
      refine ⟨hexcl, hconn ▸ hs.committed, hconn ▸ hs.grows, fun hidle => ?_, fun i r hr => ?_⟩
      · rw [hconn]
        exact hs.idle fun i r hr => hidle i r ((hold i (hne i r hr)).trans hr)
      · rw [hconn]
        by_cases hi : i = s.calls
        · subst hi
          obtain rfl := Option.some.inj (hnew.symm.trans hr)
          exact own_enter m _
        · exact hs.own i r ((hold i hi).symm.trans hr)
  | answer i e a =>
      obtain ⟨r, q, c, b, hr, hq, hends, hba, habort, rfl⟩ := Session.step_answer h
      have hleaves := leaves hs hr hq hends fun hst hb => by
        obtain rfl := hba.mp hb
        exact hs.idle (hev.1 r hr (by simp [register, stmt, hst]))
      refine ⟨hexcl, hleaves.committed, hleaves.grows, fun hidle => ?_, ?_⟩
      · have hout := hidle i _ (Session.goOn_self ..)
        refine view_balanced hq hends hleaves.committed hout (fun hir => hs.idle ?_) ?_
        · intro k rk hk hin
          by_cases hki : k = i
          · subst hki
            obtain rfl := Option.some.inj (hr.symm.trans hk)
            exact hir hin
          · exact hidle k rk ((Session.goOn_other c hki _).trans hk) hin
        · intro err hst hc
          -- nothing is open after a rollback
          have hclosed : c = s.conn.abort → s.conn.view.Balanced := by
            intro hab
            rw [← hc, hab]
            exact hs.committed
          cases a with
          | ok =>
              obtain rfl := hba.mpr rfl
              simp only [register, stmt, hst, Option.some.injEq] at hq
              subst hq
              exact hclosed (Option.some.inj hends.succeeded).symm
          | error => exact hev.2 i r err rfl hr hst
          | aborted => exact hclosed (habort rfl)
      · exact Session.own_answer (P := fun _ => Own) brackets hs.exclusive hev.1 hr hq hends hba
          hs.own hleaves.own fun k rk _ _ hout => own_of_extends hout hleaves.keeps
  | lost =>
      obtain rfl := Option.some.inj h
      refine ⟨hexcl, hs.committed, .refl _, fun _ => hs.committed, fun i r hr => ?_⟩
      obtain ⟨r₀, hr₀, rfl⟩ := Option.map_eq_some_iff.mp hr
      have hown := hs.own i r₀ hr₀
      cases hst : r₀.stage with
      | returned reply => simpa [Own, register, hst, Connection.abort] using hown
      | _ => simp [Own, register, hst]

theorem reach_inv {d : Tables} (hd : d.Balanced)
    (hr : Session.Reach register Steady (Session.start d) s) : Inv s := by
  induction hr with
  | refl => exact start_inv hd
  | step _ hev hs ih => exact step_inv ih hev hs

/-- Registration is atomic in a steady run. -/
theorem register_atomic (d : Tables) (hd : d.Balanced) (s : Session Request Tables)
    (hr : Session.Reach register Steady (Session.start d) s) : Atomic s := by
  have hs := reach_inv hd hr
  refine ⟨fun _ => hs.committed, fun i r reply hi hst hcode => ?_⟩
  have hown := hs.own i r hi
  simp only [Own, hst] at hown
  exact hown hcode

/-- No accounts. -/
def noTables : Tables := ⟨fun _ => none, fun _ => none⟩

theorem noTables_balanced : noTables.Balanced := fun _ => rfl

/-- Between {lit}`START TRANSACTION` and the end of the transaction. -/
def Request.begun (r : Request) : Bool :=
  match r.stage with
  | .insertingLogin => true
  | .insertingRole => true
  | .committing => true
  | .rollingBack _ => true
  | _ => false

theorem Request.begun_iff (r : Request) : r.begun = true ↔ InTx r := by
  unfold Request.begun InTx
  cases r.stage <;> simp

/-- A statement succeeds that starts no transaction, or when none is open. -/
theorem steady_ok (hs : Inv s) {i : Nat}
    (h : ((s.requests i).all (fun r => r.stage ≠ .starting) ||
      (List.range s.calls).all fun j => (s.requests j).all fun r => !r.begun) = true) :
    Steady s (.answer i () .ok) := by
  refine ⟨fun r hr hstart j r' hj => ?_, fun _ _ _ he => by cases he⟩
  rcases Bool.or_eq_true _ _ |>.mp h with h | h
  · rw [hr] at h
    have hstage : r.stage ≠ .starting := of_decide_eq_true h
    cases hst : r.stage <;> simp_all [register, stmt]
  · have hlt : j < s.calls := by
      by_contra hle
      cases (hs.exclusive.fresh j (Nat.le_of_not_lt hle)).symm.trans hj
    have hall := List.all_eq_true.mp h j (List.mem_range.mpr hlt)
    rw [hj] at hall
    rw [← Request.begun_iff]
    simpa using hall

/-- A statement fails that is no {lit}`ROLLBACK`. -/
theorem steady_error {i : Nat}
    (h : (s.requests i).all (fun r => r.stage = .insertingRole) = true) :
    Steady s (.answer i () .error) := by
  refine ⟨trivial, fun j r err he hr hstage => ?_⟩
  cases he
  rw [hr] at h
  cases (of_decide_eq_true h : r.stage = .insertingRole).symm.trans hstage

/-- Two registrations; the second one waits until the first has committed, and its role cannot be
stored. -/
theorem register_atomic_two : ∃ s, Session.Reach register Steady (Session.start noTables) s ∧
    s.requests 0 = some ⟨"ann", ⟨"s", "v"⟩, .returned registerOk⟩ ∧
    s.requests 1 =
      some ⟨"bob", ⟨"t", "w"⟩, .returned (registerFail "向数据库注册角色数据失败")⟩ ∧ Atomic s := by
  have hok : ∀ s i, Session.Reach register Steady (Session.start noTables) s →
      ((s.requests i).all (fun r => r.stage ≠ .starting) ||
        (List.range s.calls).all fun j => (s.requests j).all fun r => !r.begun) = true →
      Steady s (.answer i () .ok) := fun _ _ hr => steady_ok (reach_inv noTables_balanced hr)
  have h₁ : Session.Reach register Steady (Session.start noTables) _ :=
    .step (e := .call ⟨some "ann", some "s", some "v"⟩) .refl ⟨trivial, nofun⟩ rfl
  have h₂ := h₁.step (e := .call ⟨some "bob", some "t", some "w"⟩) ⟨trivial, nofun⟩ rfl
  have h₃ := h₂.step (e := .answer 0 () .ok) (hok _ _ h₂ rfl) rfl
  have h₄ := h₃.step (e := .answer 1 () .ok) (hok _ _ h₃ rfl) rfl
  have h₅ := h₄.step (e := .answer 0 () .ok) (hok _ _ h₄ rfl) rfl
  have h₆ := h₅.step (e := .answer 0 () .ok) (hok _ _ h₅ rfl) rfl
  have h₇ := h₆.step (e := .answer 0 () .ok) (hok _ _ h₆ rfl) rfl
  have h₈ := h₇.step (e := .answer 0 () .ok) (hok _ _ h₇ rfl) rfl
  -- the second transaction starts when the first one is over
  have h₉ := h₈.step (e := .answer 1 () .ok) (hok _ _ h₈ rfl) rfl
  have h₁₀ := h₉.step (e := .answer 0 () .ok) (hok _ _ h₉ rfl) rfl
  have h₁₁ := h₁₀.step (e := .answer 1 () .ok) (hok _ _ h₁₀ rfl) rfl
  have h₁₂ := h₁₁.step (e := .answer 1 () .error) (steady_error rfl) rfl
  have h₁₃ := h₁₂.step (e := .answer 1 () .ok) (hok _ _ h₁₂ rfl) rfl
  have h₁₄ := h₁₃.step (e := .answer 1 () .ok) (hok _ _ h₁₃ rfl) rfl
  exact ⟨_, h₁₄, rfl, rfl, register_atomic noTables noTables_balanced _ h₁₄⟩

/-- The second registration commits half of the first one and rolls back the other half. -/
theorem register_mixed : ¬ ∀ (d : Tables) (s : Session Request Tables), d.Balanced →
    Session.Reach register (fun _ _ => True) (Session.start d) s → Atomic s := by
  intro hall
  have h₁ : Session.Reach register (fun _ _ => True) (Session.start noTables) _ :=
    .step (e := .call ⟨some "ann", some "s", some "v"⟩) .refl trivial rfl
  have h₂ := h₁.step (e := .call ⟨some "bob", some "s", some "v"⟩) trivial rfl
  have h₃ := h₂.step (e := .answer 0 () .ok) trivial rfl
  have h₄ := h₃.step (e := .answer 1 () .ok) trivial rfl
  have h₅ := h₄.step (e := .answer 0 () .ok) trivial rfl
  have h₆ := h₅.step (e := .answer 0 () .ok) trivial rfl
  -- the second {lit}`START TRANSACTION` commits the account of the first request
  have h₇ := h₆.step (e := .answer 1 () .ok) trivial rfl
  have h₈ := h₇.step (e := .answer 0 () .ok) trivial rfl
  have h₉ := h₈.step (e := .answer 1 () .error) trivial rfl
  -- and its {lit}`ROLLBACK` drops the role
  have h₁₀ := h₉.step (e := .answer 1 () .ok) trivial rfl
  have h₁₁ := h₁₀.step (e := .answer 0 () .ok) trivial rfl
  have h₁₂ := h₁₁.step (e := .answer 0 () .ok) trivial rfl
  have hholds := (hall _ _ noTables_balanced h₁₂).2 0 _ registerOk rfl rfl rfl
  have hrole : (none : Option RoleData) = some newRole := hholds.2
  cases hrole

end BallServer.Login
