import BallServer.Gateway.Service

/-!
# Sockets and players

The tables {lit}`conns` and {lit}`players` point at each other.  They agree as long as a
{lit}`sure_agent` does not name a socket that belongs to another player or a player that
is bound to another socket, and a refused one does not take either away from somebody
else.  {lit}`process_reconnect` makes the first check, {lit}`sure_agent` does not.

Main results:

- Theorem {lit}`step_agrees_iff`: an event keeps the agreement exactly when it is
  harmless.
- Theorem {lit}`tables_agree`: harmless events lead to agreeing tables only.
- Theorem {lit}`tables_disagree`: two logins on one socket do not.
-/

namespace BallServer.Gate

namespace Gateway

/-- The tables point back at each other. -/
structure Agrees (g : Gateway) : Prop where
  player : ∀ p x r, g.players p = some x → x.conn = some r →
    g.conns (g.table r).fd = some r ∧ (g.table r).playerid = some p
  conn : ∀ fd r p, g.conns fd = some r → (g.table r).playerid = some p →
    ∃ x, g.players p = some x ∧ x.conn = some r

/-- The socket is free or belongs to the player. -/
def Mine (g : Gateway) (fd p : Nat) : Prop :=
  ∀ r q, g.conns fd = some r → (g.table r).playerid = some q → q = p

/-- The player is bound to no socket, or to this one. -/
def Here (g : Gateway) (fd p : Nat) : Prop :=
  ∀ x r, g.players p = some x → x.conn = some r → (g.table r).fd = fd

/-- The event takes no socket and no binding away from somebody else. -/
def Harmless (g : Gateway) : Event → Prop
  | .sureAgent fd p _ _ _ => g.conns fd ≠ none → g.Mine fd p ∧ g.Here fd p
  | .resume h (.confirmed false) =>
      ∀ fd p token, g.handlers h = some (.confirm fd p token) → g.Mine fd p ∧ g.Here fd p
  | _ => True

end Gateway

/-! ## The tables alone -/

/-- What the tables hold: the number and the owner of each conn table, the sockets, and
for each player that is entered the conn table it is bound to. -/
@[ext]
structure Tables where
  fd : Nat → Nat
  owner : Nat → Option Nat
  next : Nat
  conns : Nat → Option Nat
  bound : Nat → Option (Option Nat)
  live : Nat → Bool

namespace Tables

/-- A socket is accepted. -/
def accept (t : Tables) (fd : Nat) : Tables :=
  { t with
    fd := Function.update t.fd t.next fd
    owner := Function.update t.owner t.next none
    next := t.next + 1
    conns := Function.update t.conns fd (some t.next)
    live := Function.update t.live fd true }

/-- A conn table and a player are bound to each other. -/
def enter (t : Tables) (r p : Nat) : Tables :=
  { t with
    owner := Function.update t.owner r (some p)
    bound := Function.update t.bound p (some (some r)) }

/-- A socket is taken out and closed. -/
def drop (t : Tables) (fd : Nat) : Tables :=
  { t with
    conns := Function.update t.conns fd none
    live := Function.update t.live fd false }

/-- A player is removed, or stays without a socket. -/
def free (t : Tables) (p : Nat) (v : Option (Option Nat)) : Tables :=
  { t with bound := Function.update t.bound p v }

/-- The tables point back at each other, and the sockets in them are live. -/
structure Agrees (t : Tables) : Prop where
  player : ∀ p r, t.bound p = some (some r) → t.conns (t.fd r) = some r ∧ t.owner r = some p
  conn : ∀ fd r p, t.conns fd = some r → t.owner r = some p → t.bound p = some (some r)

/-- Every socket in {lit}`conns` is live, and its table knows its number. -/
structure Filed (t : Tables) : Prop where
  fd : ∀ fd r, t.conns fd = some r → t.fd r = fd
  fresh : ∀ fd r, t.conns fd = some r → r < t.next
  live : ∀ fd, t.live fd = (t.conns fd).isSome

variable {t : Tables}

@[simp, grind =]
theorem accept_fd (t : Tables) (fd i : Nat) :
    (t.accept fd).fd i = if i = t.next then fd else t.fd i := by
  simp [accept, Function.update_apply]

@[simp, grind =]
theorem accept_owner (t : Tables) (fd i : Nat) :
    (t.accept fd).owner i = if i = t.next then none else t.owner i := by
  simp [accept, Function.update_apply]

@[simp, grind =]
theorem accept_next (t : Tables) (fd : Nat) : (t.accept fd).next = t.next + 1 :=
  rfl

@[simp, grind =]
theorem accept_conns (t : Tables) (fd i : Nat) :
    (t.accept fd).conns i = if i = fd then some t.next else t.conns i := by
  simp [accept, Function.update_apply]

@[simp, grind =]
theorem accept_bound (t : Tables) (fd i : Nat) : (t.accept fd).bound i = t.bound i :=
  rfl

@[simp, grind =]
theorem accept_live (t : Tables) (fd i : Nat) :
    (t.accept fd).live i = if i = fd then true else t.live i := by
  simp [accept, Function.update_apply]

@[simp, grind =]
theorem enter_fd (t : Tables) (r p i : Nat) : (t.enter r p).fd i = t.fd i :=
  rfl

@[simp, grind =]
theorem enter_owner (t : Tables) (r p i : Nat) :
    (t.enter r p).owner i = if i = r then some p else t.owner i := by
  simp [enter, Function.update_apply]

@[simp, grind =]
theorem enter_conns (t : Tables) (r p i : Nat) : (t.enter r p).conns i = t.conns i :=
  rfl

@[simp, grind =]
theorem enter_bound (t : Tables) (r p i : Nat) :
    (t.enter r p).bound i = if i = p then some (some r) else t.bound i := by
  simp [enter, Function.update_apply]

@[simp, grind =]
theorem drop_fd (t : Tables) (fd i : Nat) : (t.drop fd).fd i = t.fd i :=
  rfl

@[simp, grind =]
theorem drop_owner (t : Tables) (fd i : Nat) : (t.drop fd).owner i = t.owner i :=
  rfl

@[simp, grind =]
theorem drop_next (t : Tables) (fd : Nat) : (t.drop fd).next = t.next :=
  rfl

@[simp, grind =]
theorem drop_conns (t : Tables) (fd i : Nat) :
    (t.drop fd).conns i = if i = fd then none else t.conns i := by
  simp [drop, Function.update_apply]

@[simp, grind =]
theorem drop_bound (t : Tables) (fd i : Nat) : (t.drop fd).bound i = t.bound i :=
  rfl

@[simp, grind =]
theorem drop_live (t : Tables) (fd i : Nat) :
    (t.drop fd).live i = if i = fd then false else t.live i := by
  simp [drop, Function.update_apply]

@[simp, grind =]
theorem free_fd (t : Tables) (p i : Nat) (v : Option (Option Nat)) : (t.free p v).fd i = t.fd i :=
  rfl

@[simp, grind =]
theorem free_owner (t : Tables) (p i : Nat) (v : Option (Option Nat)) :
    (t.free p v).owner i = t.owner i :=
  rfl

@[simp, grind =]
theorem free_conns (t : Tables) (p i : Nat) (v : Option (Option Nat)) :
    (t.free p v).conns i = t.conns i :=
  rfl

@[simp, grind =]
theorem free_bound (t : Tables) (p i : Nat) (v : Option (Option Nat)) :
    (t.free p v).bound i = if i = p then v else t.bound i := by
  simp [free, Function.update_apply]

theorem Filed.accept (ht : t.Filed) (fd : Nat) : (t.accept fd).Filed where
  fd fd' r h := by
    have := ht.fd fd' r
    have := ht.fresh fd' r
    grind
  fresh fd' r h := by
    have := ht.fresh fd' r
    grind
  live fd' := by
    have := ht.live fd'
    grind

theorem Filed.enter (ht : t.Filed) (r p : Nat) : (t.enter r p).Filed :=
  ⟨ht.fd, ht.fresh, ht.live⟩

theorem Filed.drop (ht : t.Filed) (fd : Nat) : (t.drop fd).Filed where
  fd fd' r h := by
    have := ht.fd fd' r
    grind
  fresh fd' r h := by
    have := ht.fresh fd' r
    grind
  live fd' := by
    have := ht.live fd'
    grind

theorem Filed.free (ht : t.Filed) (p : Nat) (v : Option (Option Nat)) : (t.free p v).Filed :=
  ⟨ht.fd, ht.fresh, ht.live⟩

theorem Agrees.accept (ha : t.Agrees) (ht : t.Filed) {fd : Nat} (hfd : t.live fd = false) :
    (t.accept fd).Agrees where
  player p r h := by
    obtain ⟨hc, ho⟩ := ha.player p r h
    have hr := ht.fresh _ r hc
    have hl := ht.live (t.fd r)
    grind
  conn fd' r p hc ho := by
    have hr := ht.fresh fd' r
    have := ha.conn fd' r p
    grind

/-- The socket and the player that are bound to each other have to be free for each
other. -/
theorem enter_agrees_iff (ha : t.Agrees) (ht : t.Filed) {fd r : Nat} (hr : t.conns fd = some r)
    (p : Nat) :
    (t.enter r p).Agrees ↔ (∀ q, t.owner r = some q → q = p) ∧
      ∀ r', t.bound p = some (some r') → t.fd r' = fd := by
  constructor
  · intro h
    constructor
    · intro q hq
      by_contra hne
      have hb : (t.enter r p).bound q = some (some r) := by
        grind [ha.conn fd r q hr hq]
      have := (h.player q r hb).2
      grind
    · intro r' hb
      by_contra hne
      obtain ⟨hc, ho⟩ := ha.player p r' hb
      have hrr : r' ≠ r := fun h => hne (h ▸ ht.fd fd r hr)
      have := h.conn (t.fd r') r' p hc (by grind)
      grind
  · intro ⟨hown, hbnd⟩
    have hfd := ht.fd fd r hr
    constructor
    · intro p' r' hb
      have := ha.player p' r'
      grind
    · intro fd' r' p' hc ho
      have := ha.conn fd' r' p' hc
      have := ht.fd fd' r' hc
      grind [ha.player p r']

/-- A socket that is closed and a player that loses its binding have to belong to nobody
else. -/
theorem drop_agrees_iff (ha : t.Agrees) (ht : t.Filed) (fd p : Nat) {v : Option (Option Nat)}
    (hv : ∀ r, v ≠ some (some r)) :
    ((t.drop fd).free p v).Agrees ↔ (∀ r q, t.conns fd = some r → t.owner r = some q → q = p) ∧
      ∀ r, t.bound p = some (some r) → t.fd r = fd := by
  constructor
  · intro h
    constructor
    · intro r q hc hq
      by_contra hne
      have hb := ha.conn fd r q hc hq
      have := (h.player q r (by grind)).1
      grind [ht.fd fd r hc]
    · intro r hb
      by_contra hne
      obtain ⟨hc, ho⟩ := ha.player p r hb
      have := h.conn (t.fd r) r p (by grind) ho
      grind
  · intro ⟨hown, hbnd⟩
    constructor
    · intro p' r hb
      have := ha.player p' r
      grind
    · intro fd' r p' hc ho
      have := ha.conn fd' r p'
      have := ht.fd fd' r
      grind

end Tables

namespace Gateway

/-- The tables of the service. -/
def tables (g : Gateway) : Tables where
  fd r := (g.table r).fd
  owner r := (g.table r).playerid
  next := g.nextTable
  conns := g.conns
  bound p := (g.players p).map (·.conn)
  live := g.live

theorem tables_bound {g : Gateway} {p : Nat} {c : Option Nat} :
    g.tables.bound p = some c ↔ ∃ x, g.players p = some x ∧ x.conn = c := by
  simp [tables]

theorem agrees_iff {g : Gateway} : g.Agrees ↔ g.tables.Agrees := by
  constructor
  · intro ⟨hplayer, hconn⟩
    refine ⟨fun p r hb => ?_, fun fd r p hc ho => tables_bound.mpr (hconn fd r p hc ho)⟩
    obtain ⟨x, hx, hr⟩ := tables_bound.mp hb
    exact hplayer p x r hx hr
  · intro ⟨hplayer, hconn⟩
    exact ⟨fun p x r hx hr => hplayer p r (tables_bound.mpr ⟨x, hx, hr⟩),
      fun fd r p hc ho => tables_bound.mp (hconn fd r p hc ho)⟩

/-- What an event does to the tables, and when. -/
inductive Effect (g : Gateway) (t : Tables) : Event → Prop where
  | keep (e : Event) (he : g.Harmless e) (ht : t = g.tables) : Effect g t e
  | accept (fd : Nat) (hfd : g.live fd = false) (ht : t = g.tables.accept fd) :
      Effect g t (.connect fd)
  | enter (fd r p a v token : Nat) (hr : g.conns fd = some r) (ht : t = g.tables.enter r p) :
      Effect g t (.sureAgent fd p a v token)
  | rebind (fd r p token : Nat) (k : Int) (hr : g.conns fd = some r)
      (ho : g.tables.owner r = none) (hb : g.tables.bound p = some none)
      (ht : t = g.tables.enter r p) : Effect g t (.reconnect fd p token k)
  | lose (fd r : Nat) (hr : g.conns fd = some r) (ho : g.tables.owner r = none)
      (ht : t = g.tables.drop fd) : Effect g t (.disconnect fd)
  | leave (fd r p : Nat) (hr : g.conns fd = some r) (ho : g.tables.owner r = some p)
      (ht : t = (g.tables.drop fd).free p (some none)) : Effect g t (.disconnect fd)
  | forget (p : Nat) (hb : g.tables.bound p = some none) (ht : t = g.tables.free p none) :
      Effect g t (.kick p)
  | evict (p r : Nat) (hb : g.tables.bound p = some (some r))
      (ht : t = (g.tables.drop (g.tables.fd r)).free p none) : Effect g t (.kick p)
  | refuse (h fd p token : Nat) (hh : g.handlers h = some (.confirm fd p token))
      (ht : t = (g.tables.drop fd).free p none) : Effect g t (.resume h (.confirmed false))

/-- The tables see nothing of an update. -/
theorem tables_eq {g g' : Gateway} (ht : ∀ r, (g'.table r).fd = (g.table r).fd)
    (ho : ∀ r, (g'.table r).playerid = (g.table r).playerid) (hn : g'.nextTable = g.nextTable)
    (hc : g'.conns = g.conns) (hp : ∀ p, (g'.players p).map (·.conn) = (g.players p).map (·.conn))
    (hl : g'.live = g.live) : g'.tables = g.tables := by
  ext i : 2
  · exact ht i
  · exact ho i
  · exact hn
  · exact congrFun hc i
  · exact hp i
  · exact congrFun hl i

theorem setPlayer_tables (g : Gateway) (p : Nat) (x : Option GatePlayer) :
    (g.setPlayer p x).tables = g.tables.free p (x.map (·.conn)) := by
  ext i : 2 <;> simp only [tables, setPlayer, Tables.free, Function.update_apply]
  split <;> rfl

theorem emit_tables (g : Gateway) (a : Action) : (g.emit a).tables = g.tables :=
  rfl

theorem drop_tables (g : Gateway) (fd : Nat) :
    ((g.setConn fd none).close fd).tables = g.tables.drop fd :=
  rfl

theorem close_tables {g : Gateway} {fd : Nat} (hfd : g.live fd = false) :
    (g.close fd).tables = g.tables := by
  refine tables_eq ?_ ?_ ?_ ?_ ?_ ?_ <;> intros <;> try rfl
  simp only [close, Function.update_eq_iff, hfd, ne_eq, implies_true, and_self]

theorem processConnect_effect {g : Gateway} {fd : Nat} (hfd : g.live fd = false) :
    Effect g (g.processConnect fd).tables (.connect fd) := by
  unfold processConnect
  split
  · exact .keep _ trivial (close_tables hfd)
  · refine .accept fd hfd ?_
    ext i : 2 <;> simp only [tables, Tables.accept, Function.update_apply]
    · split <;> rfl
    · split <;> rfl

theorem processMsg_tables (g : Gateway) (fd loginid : Nat) :
    (g.processMsg fd loginid).tables = g.tables := by
  unfold processMsg
  split
  · rfl
  · split
    · refine tables_eq (fun i => ?_) (fun i => ?_) rfl rfl (fun _ => rfl) rfl <;>
        simp only [emit, setTable, Function.update_apply] <;> split <;> simp_all
    · split <;> rfl

theorem bind_tables (g : Gateway) (fd r p : Nat) (x : GatePlayer) (k : Int) :
    (g.bind fd r p x k).tables = g.tables.enter r p := by
  ext i : 2 <;>
    simp only [tables, bind, setPlayer, setTable, Tables.enter, Function.update_apply] <;>
    split <;> simp_all

theorem processReconnect_effect (g : Gateway) (fd p token : Nat) (k : Int) :
    Effect g (g.processReconnect fd p token k).tables (.reconnect fd p token k) := by
  unfold processReconnect
  split
  · exact .keep _ trivial rfl
  · rename_i r hr
    split
    · exact .keep _ trivial rfl
    · rename_i x hx
      split
      · exact .keep _ trivial rfl
      · split
        · exact .keep _ trivial rfl
        · split
          · exact .keep _ trivial rfl
          · rename_i hc ho _
            exact .rebind fd r p token k hr (not_ne_iff.mp ho)
              (tables_bound.mpr ⟨x, hx, not_ne_iff.mp hc⟩) (bind_tables g fd r p x k)

theorem disconnect_effect (g : Gateway) (fd : Nat) :
    Effect g ({ g with nextHandler := g.nextHandler + 1 }.disconnect g.nextHandler fd).tables
      (.disconnect fd) := by
  unfold disconnect
  split
  · exact .keep _ trivial rfl
  · rename_i r hr
    split
    · rename_i ho
      exact .lose fd r hr ho rfl
    · rename_i p ho
      split
      · exact .keep _ trivial rfl
      · refine .leave fd r p hr ho ?_
        ext i : 2 <;>
          simp only [tables, close, setConn, setPlayer, Tables.drop, Tables.free,
            Function.update_apply]
        split <;> rfl

theorem send_tables (g : Gateway) (h p : Nat) (pack : Option Buff) :
    (g.send h p pack).tables = g.tables := by
  unfold send
  split
  · rfl
  · rename_i x hx
    have hsame : ∀ y : GatePlayer, y.conn = x.conn → (g.setPlayer p (some y)).tables = g.tables := by
      intro y hy
      rw [setPlayer_tables]
      ext i : 2 <;> try rfl
      rw [Tables.free_bound]
      split <;> simp_all [tables]
    split
    · exact hsame _ rfl
    · simp only [sendBuff]
      split
      · split
        · exact hsame _ rfl
        · exact hsame _ rfl
      · exact hsame _ rfl

theorem sureAgent_effect (g : Gateway) (fd p a v token : Nat) :
    Effect g ({ g with nextHandler := g.nextHandler + 1 }.sureAgent g.nextHandler fd p a v
      token).tables (.sureAgent fd p a v token) := by
  unfold sureAgent
  split
  · rename_i hc
    exact .keep _ (fun h => absurd hc h) rfl
  · rename_i r hr
    refine .enter fd r p a v token hr ?_
    ext i : 2 <;>
      simp only [tables, setTable, setPlayer, setHandler, Tables.enter, Function.update_apply] <;>
      split <;> simp_all

theorem kick_effect (g : Gateway) (p : Nat) : Effect g (g.kick p).tables (.kick p) := by
  unfold kick
  split
  · exact .keep _ trivial rfl
  · rename_i x hx
    split
    · rename_i hc
      exact .forget p (tables_bound.mpr ⟨x, hx, hc⟩) (setPlayer_tables g p none)
    · rename_i r hr
      exact .evict p r (tables_bound.mpr ⟨x, hx, hr⟩)
        ((drop_tables _ _).trans (by rw [setPlayer_tables]; rfl))

theorem timeout_tables (g : Gateway) (h p ver v : Nat) : (g.timeout h p ver v).tables = g.tables := by
  unfold timeout
  split
  · rfl
  · split
    · rfl
    · split <;> rfl

theorem resume_effect {g g' : Gateway} {h : Nat} {x : Handler} {a : Answer}
    (hh : g.handlers h = some x) (hs : g.resume h x a = some g') :
    Effect g g'.tables (.resume h a) := by
  cases x with
  | confirmLost fd p =>
      cases a <;> simp only [resume, Option.some.injEq, reduceCtorEq] at hs <;> subst hs
      · refine .keep _ ?_ rfl
        unfold Harmless
        split <;> simp_all
      · exact .keep _ trivial rfl
  | confirm fd p token =>
      rcases a with ⟨_ | _⟩ | _ | _ <;>
        simp only [resume, Option.some.injEq, reduceCtorEq] at hs <;> subst hs
      · refine .refuse h fd p token hh ?_
        rw [emit_tables, drop_tables, setPlayer_tables]
        rfl
      · exact .keep _ trivial rfl
      · exact .keep _ trivial rfl
  | timer p ver v =>
      cases a <;> simp only [resume, Option.some.injEq, reduceCtorEq] at hs
      subst hs
      exact .keep _ trivial (timeout_tables g h p ver v)
  | reqkick p v =>
      cases a <;> simp only [resume, Option.some.injEq, reduceCtorEq] at hs <;> subst hs
      · exact .keep _ trivial rfl
      · exact .keep _ trivial rfl

theorem step_effect {g g' : Gateway} {e : Event} (hs : g.step e = some g') :
    Effect g g'.tables e := by
  cases e with
  | connect fd =>
      simp only [step] at hs
      split at hs
      · cases hs
      · rename_i hfd
        obtain rfl := Option.some.inj hs
        exact processConnect_effect (Bool.not_eq_true _ ▸ hfd)
  | message fd loginid =>
      obtain rfl := Option.some.inj hs
      exact .keep _ trivial (processMsg_tables g fd loginid)
  | reconnect fd p token k =>
      obtain rfl := Option.some.inj hs
      exact processReconnect_effect g fd p token k
  | disconnect fd =>
      obtain rfl := Option.some.inj hs
      exact disconnect_effect g fd
  | sendByFd fd buf =>
      obtain rfl := Option.some.inj hs
      exact .keep _ trivial rfl
  | send p pack =>
      obtain rfl := Option.some.inj hs
      exact .keep _ trivial (send_tables { g with nextHandler := g.nextHandler + 1 } _ p pack)
  | sureAgent fd p a v token =>
      obtain rfl := Option.some.inj hs
      exact sureAgent_effect g fd p a v token
  | kick p =>
      obtain rfl := Option.some.inj hs
      exact kick_effect g p
  | shutdown =>
      obtain rfl := Option.some.inj hs
      exact .keep _ trivial rfl
  | resume h a =>
      simp only [step] at hs
      split at hs
      · cases hs
      · rename_i x hx
        exact resume_effect hx hs

/-! ## Runs -/

theorem start_filed : start.tables.Filed where
  fd := by simp [start, tables]
  fresh := by simp [start, tables]
  live := by simp [start, tables]

theorem start_agrees : start.Agrees where
  player := by simp [start]
  conn := by simp [start]

theorem step_filed {g g' : Gateway} {e : Event} (hf : g.tables.Filed)
    (hs : g.step e = some g') : g'.tables.Filed := by
  cases step_effect hs with
  | keep _ _ ht => exact ht ▸ hf
  | accept fd _ ht => exact ht ▸ hf.accept fd
  | enter _ r p _ _ _ _ ht => exact ht ▸ hf.enter r p
  | rebind _ r p _ _ _ _ _ ht => exact ht ▸ hf.enter r p
  | lose fd _ _ _ ht => exact ht ▸ hf.drop fd
  | leave fd _ p _ _ ht => exact ht ▸ (hf.drop fd).free p _
  | forget p _ ht => exact ht ▸ hf.free p _
  | evict p r _ ht => exact ht ▸ (hf.drop _).free p _
  | refuse _ fd p _ _ ht => exact ht ▸ (hf.drop fd).free p _

theorem here_iff {g : Gateway} {fd p : Nat} :
    g.Here fd p ↔ ∀ r, g.tables.bound p = some (some r) → g.tables.fd r = fd := by
  constructor
  · intro h r hb
    obtain ⟨x, hx, hr⟩ := tables_bound.mp hb
    exact h x r hx hr
  · intro h x r hx hr
    exact h r (tables_bound.mpr ⟨x, hx, hr⟩)

/-- Between agreeing tables there is nothing else an event could do. -/
theorem step_agrees_iff {g g' : Gateway} {e : Event} (hf : g.tables.Filed) (ha : g.Agrees)
    (hs : g.step e = some g') : g'.Agrees ↔ g.Harmless e := by
  have ht := agrees_iff.mp ha
  rw [agrees_iff]
  cases step_effect hs with
  | keep _ he h => exact iff_of_true (h ▸ ht) he
  | accept fd hfd h => exact iff_of_true (h ▸ ht.accept hf hfd) trivial
  | enter fd r p a v token hr h =>
      rw [h, Tables.enter_agrees_iff ht hf hr]
      constructor
      · intro ⟨hm, hh⟩ _
        refine ⟨fun r' q hc hq => hm q ?_, here_iff.mpr hh⟩
        obtain rfl := Option.some.inj (hr.symm.trans hc)
        exact hq
      · intro hh
        obtain ⟨hm, hh⟩ := hh (Option.ne_none_iff_exists'.mpr ⟨r, hr⟩)
        exact ⟨fun q hq => hm r q hr hq, here_iff.mp hh⟩
  | rebind fd r p token k hr ho hb h =>
      refine iff_of_true ?_ trivial
      rw [h, Tables.enter_agrees_iff ht hf hr]
      exact ⟨by simp [ho], by simp [hb]⟩
  | lose fd r hr ho h =>
      refine iff_of_true ?_ trivial
      rw [h]
      constructor
      · intro p r' hb
        have := ht.player p r' hb
        grind [tables]
      · intro fd' r' p hc hq
        have := ht.conn fd' r' p
        grind
  | leave fd r p hr ho h =>
      refine iff_of_true ?_ trivial
      rw [h, Tables.drop_agrees_iff ht hf fd p (by simp)]
      constructor
      · intro r' q hc hq
        obtain rfl := Option.some.inj (hr.symm.trans hc)
        exact Option.some.inj (hq.symm.trans ho)
      · intro r' hb
        have := ht.conn fd r p hr ho
        have := hf.fd fd r hr
        grind
  | forget p hb h =>
      refine iff_of_true ?_ trivial
      rw [h]
      constructor
      · intro q r hb'
        have := ht.player q r
        grind
      · intro fd r q hc hq
        have := ht.conn fd r q hc hq
        grind
  | evict p r hb h =>
      refine iff_of_true ?_ trivial
      rw [h, Tables.drop_agrees_iff ht hf _ p (by simp)]
      obtain ⟨hc, ho⟩ := ht.player p r hb
      constructor
      · intro r' q hc' hq
        obtain rfl := Option.some.inj (hc.symm.trans hc')
        exact Option.some.inj (hq.symm.trans ho)
      · intro r' hb'
        grind
  | refuse k fd p token hh h =>
      rw [h, Tables.drop_agrees_iff ht hf fd p (by simp)]
      constructor
      · intro ⟨hm, hb⟩ fd' p' token' hh'
        rw [hh, Option.some.injEq, Handler.confirm.injEq] at hh'
        obtain ⟨rfl, rfl, rfl⟩ := hh'
        exact ⟨hm, here_iff.mpr hb⟩
      · intro hall
        obtain ⟨hm, hb⟩ := hall fd p token hh
        exact ⟨hm, here_iff.mp hb⟩

/-- {lit}`disconnect` fails only when the owner of the socket is not entered. -/
theorem step_indexNil {g g' : Gateway} {e : Event} (hs : g.step e = some g') {p : Nat}
    (hp : .indexNil p ∈ g'.out) :
    .indexNil p ∈ g.out ∨ ∃ fd r, g.conns fd = some r ∧ (g.table r).playerid = some p ∧
      g.players p = none := by
  cases e with
  | disconnect fd =>
      obtain rfl := Option.some.inj hs
      simp only [Gateway.disconnect] at hp
      split at hp
      · exact .inl hp
      · rename_i r hr
        split at hp
        · simp_all
        · rename_i q hq
          split at hp
          · rename_i hnone
            simp only [emit_out, List.mem_append, List.mem_singleton, Action.indexNil.injEq] at hp
            rcases hp with hp | rfl
            · exact .inl hp
            · exact .inr ⟨fd, r, hr, hq, hnone⟩
          · simp_all
  | connect fd =>
      simp only [step, processConnect] at hs
      split at hs
      · cases hs
      · obtain rfl := Option.some.inj hs
        split at hp <;> simp_all
  | message fd loginid =>
      obtain rfl := Option.some.inj hs
      simp only [processMsg] at hp
      split at hp
      · exact .inl hp
      · split at hp
        · simp_all
        · split at hp <;> simp_all
  | reconnect fd q token k =>
      obtain rfl := Option.some.inj hs
      simp only [processReconnect] at hp
      split at hp
      · simp_all
      · split at hp
        · simp_all
        · (repeat' split at hp) <;> simp_all
  | sendByFd fd buf =>
      obtain rfl := Option.some.inj hs
      simp_all
  | send q pack =>
      obtain rfl := Option.some.inj hs
      simp only [send, sendBuff] at hp
      split at hp
      · exact .inl hp
      · (repeat' split at hp) <;> simp_all
  | sureAgent fd q a v token =>
      obtain rfl := Option.some.inj hs
      simp only [sureAgent] at hp
      split at hp <;> simp_all
  | kick q =>
      obtain rfl := Option.some.inj hs
      simp only [kick] at hp
      split at hp
      · exact .inl hp
      · split at hp <;> simp_all
  | shutdown =>
      obtain rfl := Option.some.inj hs
      exact .inl hp
  | resume h a =>
      simp only [step] at hs
      split at hs
      · cases hs
      · rename_i x _
        cases x <;> rcases a with ⟨_ | _⟩ | _ | _ <;>
          simp only [resume, Option.some.injEq, reduceCtorEq] at hs <;> subst hs <;>
          simp_all

end Gateway

theorem Reach.agrees {g : Gateway} (hr : Reach Gateway.Harmless g) :
    g.tables.Filed ∧ g.Agrees ∧ ∀ p, .indexNil p ∉ g.out := by
  induction hr with
  | start => exact ⟨Gateway.start_filed, Gateway.start_agrees, by simp [Gateway.start]⟩
  | step hr he hs ih =>
      obtain ⟨hf, ha, hout⟩ := ih
      refine ⟨Gateway.step_filed hf hs, (Gateway.step_agrees_iff hf ha hs).mpr he, fun p hp => ?_⟩
      rcases Gateway.step_indexNil hs hp with hp | ⟨fd, r, hc, ho, hnone⟩
      · exact hout p hp
      · obtain ⟨x, hx, -⟩ := ha.conn fd r p hc ho
        exact absurd (hnone.symm.trans hx) (by simp)

/-- Harmless events lead to agreeing tables: a player is bound to a live socket that
belongs to it, the owner of a socket is entered and bound to it, and
{lit}`disconnect` has met no missing gateplayer. -/
theorem tables_agree {g : Gateway} (hr : Reach Gateway.Harmless g) :
    (∀ p x r, g.players p = some x → x.conn = some r →
      g.conns (g.table r).fd = some r ∧ (g.table r).playerid = some p ∧
        g.live (g.table r).fd = true) ∧
    (∀ fd r p, g.conns fd = some r → (g.table r).playerid = some p →
      ∃ x, g.players p = some x ∧ x.conn = g.conns fd) ∧
    ∀ p, .indexNil p ∉ g.out := by
  obtain ⟨hf, ha, hout⟩ := hr.agrees
  refine ⟨fun p x r hx hr => ?_, fun fd r p hc ho => ?_, hout⟩
  · obtain ⟨hc, ho⟩ := ha.player p x r hx hr
    refine ⟨hc, ho, ?_⟩
    have hlive : g.live (g.table r).fd = (g.conns (g.table r).fd).isSome := hf.live _
    rw [hlive, hc]
    rfl
  · obtain ⟨x, hx, hr⟩ := ha.conn fd r p hc ho
    exact ⟨x, hx, hr.trans hc.symm⟩

/-- A player logs in, loses the socket and reconnects on another one. -/
theorem tables_agree_reconnected : ∃ g x, Reach Gateway.Harmless g ∧
    g.players 7 = some x ∧ x.conn = some 1 ∧ g.live (g.table 1).fd = true := by
  have h₁ : Reach Gateway.Harmless _ := .step (e := .connect 3) .start trivial rfl
  have hmine : (Gateway.start.processConnect 3).Mine 3 7 := by
    intro r q hc hq
    obtain rfl := Option.some.inj hc
    cases hq
  have hhere : (Gateway.start.processConnect 3).Here 3 7 := by
    intro x r hx
    cases hx
  have h₂ := Reach.step (e := .sureAgent 3 7 20 1 99) h₁ (fun _ => ⟨hmine, hhere⟩) rfl
  have h₃ := Reach.step (e := .resume 0 (.confirmed true)) h₂ trivial rfl
  have h₄ := Reach.step (e := .disconnect 3) h₃ trivial rfl
  have h₅ := Reach.step (e := .connect 4) h₄ trivial rfl
  have h₆ := Reach.step (e := .reconnect 4 7 99 0) h₅ trivial rfl
  exact ⟨_, _, h₆, rfl, rfl, ((tables_agree h₆).1 7 _ 1 rfl rfl).2.2⟩

theorem Reach.of_run {g g' : Gateway} (hr : Reach (fun _ _ => True) g) (es : List Event)
    (hrun : g.run es = some g') : Reach (fun _ _ => True) g' := by
  induction es generalizing g with
  | nil =>
      obtain rfl := Option.some.inj hrun
      exact hr
  | cons e es ih =>
      obtain ⟨g₁, hs, hrun⟩ := Gateway.run_cons.mp hrun
      exact ih (.step hr trivial hs) hrun

/-- Two logins on one socket, for players 7 and 8, and the loss of the socket leave
player 7 bound to it. -/
theorem tables_disagree : ¬ ∀ g, Reach (fun _ _ => True) g → g.Agrees := by
  intro h
  have hr := Reach.of_run .start
    [.connect 3, .sureAgent 3 7 20 1 99, .sureAgent 3 8 21 1 98, .resume 0 (.confirmed true),
      .resume 1 (.confirmed true), .disconnect 3] rfl
  have hc := ((h _ hr).player 7 _ 0 rfl rfl).1
  cases hc

end BallServer.Gate
