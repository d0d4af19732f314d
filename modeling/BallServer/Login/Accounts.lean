import Mathlib.Data.List.Pairwise
import Mathlib.Logic.Function.Basic

/-!
# Accounts and players

An account is a user name, a string.  From {lit}`reqlogin` on it is the number that
{lit}`tonumber` makes of the string, and the agent looks for its role data under the decimals of
this number.

The requests of this module are executed one after the other.  Role data is represented by the
user name whose registration has inserted it.

Main results:

- Theorem {lit}`accounts_separate_iff`: accounts do not share players if and only if no name leads
  to the role data of another one and no two names that have a player have the same number.
- Theorem {lit}`accounts_shared`: two names with the same number.
-/

namespace BallServer.Login

/-- What the program relies on: numbers of Lua, of which {lit}`key` is the key a table uses for
them, and when the two tables of the database take strings for equal. -/
structure Library (ι : Type) where
  tonumber : String → Option ι
  tostring : ι → String
  key : ι → ι
  sameName : String → String → Bool
  sameKey : String → String → Bool
  sameName_refl : ∀ u, sameName u u = true
  sameKey_equiv : Equivalence fun u v => sameKey u v = true

/-- A player that has logged in: the name of the account, the number of the player, and the name
whose registration has inserted the role data that the agent has loaded. -/
structure Played (ι : Type) where
  username : String
  id : ι
  owner : String
deriving DecidableEq, Repr

/-- The names in {lit}`login_message` and {lit}`role_message`, the sessions of
{lit}`login_first` with the account whose verifier they use, and the role data in redis. -/
structure Accounts (ι : Type) where
  rows : List String
  sessions : String → Option String
  cache : String → Option String
  played : List (Played ι)

/-- The requests.  The sender of {lit}`login_second` knows the password of one account; the agent
manager and the gateway accept the login or not. -/
inductive AccountEvent where
  | register (username : String)
  | loginFirst (username : String)
  | loginSecond (username knows : String) (mgr gate : Bool)
  /-- Sessions that are too old. -/
  | forget (username : String)
  /-- {lit}`REDIS_TTL` -/
  | expire (id : String)
deriving DecidableEq, Repr

/-- The name a request is for. -/
def AccountEvent.username : AccountEvent → Option String
  | .register u => some u
  | .loginFirst u => some u
  | .loginSecond u _ _ _ => some u
  | .forget _ => none
  | .expire _ => none

namespace Library

variable {ι : Type} (L : Library ι)

/-- {lit}`s.id` of the agent, as a string.  The number is an argument of {lit}`newservice`, which
is a string for {lit}`s.start`. -/
def agentId (n : ι) : Option String :=
  (L.tonumber (L.tostring n)).map L.tostring

/-- The string under which the agent of an account looks for its role data. -/
def roleKey (u : String) : Option String :=
  (L.tonumber u).bind L.agentId

/-- The row that belongs to a player, as {lit}`base_info` of redis or of mysql. -/
def load (s : Accounts ι) (k : String) : Option String :=
  match s.cache k with
  | some o => some o
  | none => s.rows.find? (L.sameKey · k)

/-- {lit}`s.client.register`. -/
def register (s : Accounts ι) (u : String) : Accounts ι :=
  if s.rows.any (L.sameName · u) || s.rows.any (L.sameKey · u) then s
  else { s with rows := s.rows ++ [u] }

/-- {lit}`s.client.login_first`. -/
def loginFirst (s : Accounts ι) (u : String) : Accounts ι :=
  match s.sessions u, s.rows.find? (L.sameName · u) with
  | none, some a => { s with sessions := Function.update s.sessions u (some a) }
  | _, _ => s

/-- {lit}`s.init` of the agent. -/
def startAgent (s : Accounts ι) (n : ι) : Option (Accounts ι × String) :=
  match L.agentId n with
  | none => none
  | some k =>
      match L.load s k with
      | none => none
      | some o => some ({ s with cache := Function.update s.cache k (some o) }, o)

/-- {lit}`s.client.login_second`.  {lit}`reqlogin` fails for a name that is no number. -/
def loginSecond (s : Accounts ι) (u knows : String) (mgr gate : Bool) : Accounts ι :=
  match s.sessions u with
  | none => s
  | some a =>
      let s := { s with sessions := Function.update s.sessions u none }
      if a = knows ∧ mgr = true then
        match L.tonumber u with
        | none => s
        | some n =>
            match L.startAgent s n with
            | none => s
            | some (s, o) => if gate then { s with played := s.played ++ [⟨u, n, o⟩] } else s
      else s

/-- One request. -/
def step (s : Accounts ι) : AccountEvent → Accounts ι
  | .register u => L.register s u
  | .loginFirst u => L.loginFirst s u
  | .loginSecond u knows mgr gate => L.loginSecond s u knows mgr gate
  | .forget u => { s with sessions := Function.update s.sessions u none }
  | .expire k => { s with cache := Function.update s.cache k none }

/-- No accounts. -/
def noAccounts : Accounts ι where
  rows := []
  sessions := fun _ => none
  cache := fun _ => none
  played := []

/-- Accounts that have only been registered. -/
def registered (rows : List String) : Accounts ι where
  rows := rows
  sessions := fun _ => none
  cache := fun _ => none
  played := []

/-- A sequence of requests. -/
def run (es : List AccountEvent) : Accounts ι := es.foldl L.step noAccounts

/-- Registered names log in to different players, each with its own role data. -/
def Separate (s : Accounts ι) : Prop :=
  (∀ x ∈ s.played, ∀ y ∈ s.played, x.username ∈ s.rows → y.username ∈ s.rows →
    L.key x.id = L.key y.id → x.username = y.username) ∧
  ∀ x ∈ s.played, x.username ∈ s.rows → x.owner = x.username

/-- Both names can be registered, in one order at least. -/
def Together (u v : String) : Prop :=
  (L.sameName u v = false ∧ L.sameKey u v = false) ∨
    (L.sameName v u = false ∧ L.sameKey v u = false)

/-- The agent of the account finds the role data of the account. -/
def Plays (u : String) : Prop :=
  ∃ k, L.roleKey u = some k ∧ L.sameKey u k = true

/-- No name leads to the role data of another, and two names that have players have different
numbers. -/
def Distinct (names : List String) : Prop :=
  ∀ u ∈ names, ∀ v ∈ names, u ≠ v → L.Together u v →
    (∀ k, L.roleKey u = some k → L.sameKey v k = false) ∧
    ∀ n m, L.tonumber u = some n → L.tonumber v = some m → L.key n = L.key m →
      ¬ (L.Plays u ∧ L.Plays v)

/-! ## Where role data comes from -/

/-- Rows were registered one after the other, role data in redis is that of a row, and a player
has been loaded under the number of the name. -/
structure Traced (names : List String) (s : Accounts ι) : Prop where
  names : ∀ u ∈ s.rows, u ∈ names
  rows : s.rows.Pairwise fun u v => L.sameName u v = false ∧ L.sameKey u v = false
  cache : ∀ k o, s.cache k = some o → o ∈ s.rows ∧ L.sameKey o k = true
  played : ∀ x ∈ s.played, L.tonumber x.username = some x.id ∧
    ∃ k, L.roleKey x.username = some k ∧ x.owner ∈ s.rows ∧ L.sameKey x.owner k = true

variable {L} {names : List String} {s : Accounts ι}

theorem Traced.load (hs : L.Traced names s) {k o : String} (h : L.load s k = some o) :
    o ∈ s.rows ∧ L.sameKey o k = true := by
  unfold Library.load at h
  split at h
  next hc =>
    obtain rfl := Option.some.inj h
    exact hs.cache k _ hc
  next => exact ⟨List.mem_of_find?_eq_some h, List.find?_some (p := (L.sameKey · k)) h⟩

theorem Traced.sessions (hs : L.Traced names s) (t : String → Option String) :
    L.Traced names { s with sessions := t } :=
  ⟨hs.names, hs.rows, hs.cache, hs.played⟩

theorem Traced.register (hs : L.Traced names s) {u : String} (hu : u ∈ names) :
    L.Traced names (L.register s u) := by
  unfold Library.register
  split
  next => exact hs
  next hfree =>
    simp only [Bool.or_eq_true, not_or, Bool.not_eq_true, List.any_eq_false] at hfree
    refine ⟨fun v hv => ?_, ?_, fun k o ho => ?_, fun x hx => ?_⟩
    · rcases List.mem_append.mp hv with hv | hv
      · exact hs.names v hv
      · obtain rfl := List.mem_singleton.mp hv
        exact hu
    · refine List.pairwise_append.mpr ⟨hs.rows, List.pairwise_singleton _ _, fun v hv w hw => ?_⟩
      obtain rfl := List.mem_singleton.mp hw
      exact ⟨hfree.1 v hv, hfree.2 v hv⟩
    · obtain ⟨ho, hk⟩ := hs.cache k o ho
      exact ⟨List.mem_append_left _ ho, hk⟩
    · obtain ⟨hn, k, hk, ho, hsame⟩ := hs.played x hx
      exact ⟨hn, k, hk, List.mem_append_left _ ho, hsame⟩

theorem Traced.startAgent (hs : L.Traced names s) {n : ι} {s' : Accounts ι} {o : String}
    (h : L.startAgent s n = some (s', o)) : L.Traced names s' ∧ s'.rows = s.rows ∧
      ∃ k, L.agentId n = some k ∧ o ∈ s.rows ∧ L.sameKey o k = true := by
  unfold Library.startAgent at h
  split at h
  next => cases h
  next k hk =>
    split at h
    next => cases h
    next o' hload =>
      simp only [Option.some.injEq, Prod.mk.injEq] at h
      obtain ⟨rfl, rfl⟩ := h
      obtain ⟨ho, hsame⟩ := hs.load hload
      refine ⟨⟨hs.names, hs.rows, fun k' o'' hc => ?_, hs.played⟩, rfl, k, hk, ho, hsame⟩
      simp only [Function.update_apply] at hc
      split at hc
      next heq =>
        obtain rfl := Option.some.inj hc
        exact ⟨ho, heq ▸ hsame⟩
      next => exact hs.cache k' o'' hc

theorem Traced.loginSecond (hs : L.Traced names s) (u knows : String) (mgr gate : Bool) :
    L.Traced names (L.loginSecond s u knows mgr gate) := by
  unfold Library.loginSecond
  split
  next => exact hs
  next a _ =>
    have hclear := hs.sessions (Function.update s.sessions u none)
    dsimp only
    split
    next =>
      split
      next => exact hclear
      next n hn =>
        split
        next => exact hclear
        next s' o hstart =>
          obtain ⟨hs', hrows, k, hk, ho, hsame⟩ := hclear.startAgent hstart
          split
          next =>
            refine ⟨hs'.names, hs'.rows, hs'.cache, fun x hx => ?_⟩
            rcases List.mem_append.mp hx with hx | hx
            · exact hs'.played x hx
            · obtain rfl := List.mem_singleton.mp hx
              refine ⟨hn, k, ?_, ?_, hsame⟩
              · simp only [roleKey, hn, Option.bind_some, hk]
              · exact hrows ▸ ho
          next => exact hs'
    next => exact hclear

theorem Traced.step (hs : L.Traced names s) {e : AccountEvent}
    (he : ∀ u, e.username = some u → u ∈ names) : L.Traced names (L.step s e) := by
  cases e with
  | register u => exact hs.register (he u rfl)
  | loginFirst u =>
      simp only [Library.step, Library.loginFirst]
      split
      next => exact hs.sessions _
      next => exact hs
  | loginSecond u knows mgr gate => exact hs.loginSecond u knows mgr gate
  | forget u => exact hs.sessions _
  | expire k =>
      refine ⟨hs.names, hs.rows, fun k' o hc => ?_, hs.played⟩
      simp only [Library.step, Function.update_apply] at hc
      split at hc
      · cases hc
      · exact hs.cache k' o hc

theorem run_traced {es : List AccountEvent}
    (hes : ∀ e ∈ es, ∀ u, e.username = some u → u ∈ names) : L.Traced names (L.run es) := by
  have hstart : L.Traced names (noAccounts : Accounts ι) := by
    constructor <;> simp [noAccounts]
  exact List.foldlRecOn (motive := L.Traced names) es L.step hstart
    fun _ hs e he => hs.step (hes e he)

instance : Std.Symm L.Together := ⟨fun _ _ h => h.symm⟩

theorem Traced.together (hs : L.Traced names s) {u v : String} (hu : u ∈ s.rows) (hv : v ∈ s.rows)
    (hne : u ≠ v) : L.Together u v := by
  have hrel : s.rows.Pairwise L.Together := hs.rows.imp fun h => Or.inl h
  exact hrel.forall hu hv hne

/-- Role data of a row is that of the player's own row. -/
theorem Traced.separate (hs : L.Traced names s) (hnames : L.Distinct names) : L.Separate s := by
  have hown : ∀ x ∈ s.played, x.username ∈ s.rows → x.owner = x.username := by
    intro x hx hrow
    obtain ⟨-, k, hk, ho, hsame⟩ := hs.played x hx
    by_contra hne
    have hfalse := (hnames _ (hs.names _ hrow) _ (hs.names _ ho) (Ne.symm hne)
      (hs.together hrow ho (Ne.symm hne))).1 k hk
    rw [hsame] at hfalse
    cases hfalse
  refine ⟨fun x hx y hy hxr hyr hkey => ?_, hown⟩
  by_contra hne
  have hplays : ∀ z ∈ s.played, z.username ∈ s.rows → L.Plays z.username := by
    intro z hz hrow
    obtain ⟨-, k, hk, -, hsame⟩ := hs.played z hz
    exact ⟨k, hk, hown z hz hrow ▸ hsame⟩
  exact (hnames _ (hs.names _ hxr) _ (hs.names _ hyr) hne (hs.together hxr hyr hne)).2 x.id y.id
    (hs.played x hx).1 (hs.played y hy).1 hkey ⟨hplays x hx hxr, hplays y hy hyr⟩

/-! ## Requests that lead to a shared player -/

/-- Two names are registered. -/
theorem register_both {u v : String} (h : L.Together u v) :
    ∃ (es : List AccountEvent) (rows : List String),
      L.run es = registered rows ∧ u ∈ rows ∧ v ∈ rows ∧
        ∀ e ∈ es, ∀ w, e.username = some w → w = u ∨ w = v := by
  have htwo : ∀ x y, L.sameName x y = false ∧ L.sameKey x y = false →
      L.run [.register x, .register y] = registered [x, y] := by
    intro x y h
    simp [run, Library.step, Library.register, noAccounts, registered, h.1, h.2]
  rcases h with h | h
  · refine ⟨_, _, htwo u v h, by simp, by simp, ?_⟩
    simp [AccountEvent.username, eq_comm]
  · refine ⟨_, _, htwo v u h, by simp, by simp, ?_⟩
    simp [AccountEvent.username, eq_comm]

/-- A registered name logs in. -/
theorem login {u k o : String} {n : ι} (hsession : s.sessions u = none) (hrow : u ∈ s.rows)
    (hn : L.tonumber u = some n) (hk : L.roleKey u = some k) (hload : L.load s k = some o) :
    ∃ a s', [AccountEvent.loginFirst u, .loginSecond u a true true].foldl L.step s = s' ∧
      s'.rows = s.rows ∧ s'.played = s.played ++ [⟨u, n, o⟩] ∧
      (∀ v, s.sessions v = none → s'.sessions v = none) ∧
      ∀ k o, L.load s k = some o → (L.load s' k).isSome = true := by
  have hfind : (s.rows.find? (L.sameName · u)).isSome = true :=
    List.find?_isSome.mpr ⟨u, hrow, L.sameName_refl u⟩
  obtain ⟨a, ha⟩ := Option.isSome_iff_exists.mp hfind
  have hid : L.agentId n = some k := by simpa only [roleKey, hn, Option.bind_some] using hk
  have hfirst : L.loginFirst s u =
      { s with sessions := Function.update s.sessions u (some a) } := by
    simp only [Library.loginFirst, hsession, ha]
  have hload' : ∀ t : String → Option String,
      L.load ({ s with sessions := t } : Accounts ι) k = some o := fun _ => hload
  refine ⟨a, _, rfl, ?_⟩
  simp only [List.foldl_cons, List.foldl_nil, Library.step, hfirst, Library.loginSecond,
    Function.update_self, hn, Library.startAgent, hid, hload', and_self, if_true]
  refine ⟨trivial, trivial, fun v hv => ?_, fun k' o' ho => ?_⟩
  · simp only [Function.update_apply]
    split
    · rfl
    · exact hv
  · unfold Library.load at ho ⊢
    simp only [Function.update_apply]
    by_cases hkk : k' = k
    · simp [hkk]
    · simp only [hkk, if_false]
      rw [ho]
      rfl

end Library

open Library

/-- For every set of names: in all sequences of requests registered names log in to different
players with their own role data if and only if no name leads to the role data of another one
and no two names that have players have the same number. -/
theorem accounts_separate_iff {ι : Type} (L : Library ι) (names : List String) :
    (∀ es, (∀ e ∈ es, ∀ u, AccountEvent.username e = some u → u ∈ names) →
      L.Separate (L.run es)) ↔ L.Distinct names := by
  constructor
  · intro h u hu v hv hne htogether
    obtain ⟨es, rows, hrun, hur, hvr, hes⟩ := register_both htogether
    have hnames : ∀ es' : List AccountEvent,
        (∀ e ∈ es', ∀ w, AccountEvent.username e = some w → w = u ∨ w = v) →
        L.Separate (es'.foldl L.step (registered rows)) := by
      intro es' hes'
      have hsep := h (es ++ es') fun e he w hw => by
        have hw : w = u ∨ w = v := (List.mem_append.mp he).elim
          (fun he => hes e he w hw) (fun he => hes' e he w hw)
        rcases hw with rfl | rfl
        · exact hu
        · exact hv
      rwa [run, List.foldl_append, ← run, hrun] at hsep
    have hload : ∀ w ∈ rows, ∀ k, L.sameKey w k = true →
        ∃ o, L.load (registered rows) k = some o := fun w hw k hk =>
      Option.isSome_iff_exists.mp (List.find?_isSome.mpr ⟨w, hw, hk⟩)
    refine ⟨fun k hk => ?_, fun n m hn hm hkey hplays => ?_⟩
    · -- the agent of the first name finds the row of the second
      by_contra hsame
      rw [Bool.not_eq_false] at hsame
      obtain ⟨n, hn, -⟩ := Option.bind_eq_some_iff.mp hk
      obtain ⟨o, ho⟩ := hload v hvr k hsame
      obtain ⟨a, s, hs, hrows, hplayed, -⟩ := login rfl hur hn hk ho
      have hsep := hnames [.loginFirst u, .loginSecond u a true true]
        (by simp [AccountEvent.username, eq_comm])
      rw [hs] at hsep
      have hou : o = u := hsep.2 ⟨u, n, o⟩ (by simp [hplayed]) (hrows ▸ hur)
      have hok : L.sameKey u k = true := hou ▸ List.find?_some (p := (L.sameKey · k)) ho
      have huv : L.sameKey u v = true := L.sameKey_equiv.trans hok (L.sameKey_equiv.symm hsame)
      rcases htogether with ⟨-, hno⟩ | ⟨-, hno⟩
      · rw [huv] at hno
        cases hno
      · rw [L.sameKey_equiv.symm huv] at hno
        cases hno
    · -- both names log in
      obtain ⟨⟨k, hk, hsk⟩, k', hk', hsk'⟩ := hplays
      obtain ⟨o, ho⟩ := hload u hur k hsk
      obtain ⟨o', ho'⟩ := hload v hvr k' hsk'
      obtain ⟨a, s, hs, hrows, hplayed, hsessions, hkeep⟩ := login rfl hur hn hk ho
      obtain ⟨o'', ho''⟩ := Option.isSome_iff_exists.mp (hkeep k' o' ho')
      obtain ⟨a', s', hs', hrows', hplayed', -⟩ :=
        login (hsessions v rfl) (hrows ▸ hvr) hm hk' ho''
      have hsep := hnames ([.loginFirst u, .loginSecond u a true true] ++
        [.loginFirst v, .loginSecond v a' true true]) (by simp [AccountEvent.username, eq_comm])
      rw [List.foldl_append, hs, hs'] at hsep
      refine hne (hsep.1 ⟨u, n, o⟩ (by simp [hplayed', hplayed])
        ⟨v, m, o''⟩ (by simp [hplayed']) ?_ ?_ hkey)
      · rw [hrows', hrows]
        exact hur
      · rw [hrows', hrows]
        exact hvr
  · exact fun h es hes => (run_traced hes).separate h

/-- Decimals without a sign. -/
def digits : List Char → Nat → Option Nat
  | [], n => some n
  | c :: cs, n => if '0' ≤ c ∧ c ≤ '9' then digits cs (10 * n + (c.toNat - 48)) else none

/-- Numbers as far as they are written in decimals, and strings that are equal if they are the
same. -/
def decimalLibrary : Library Nat where
  tonumber u := if u.isEmpty then none else digits u.toList 0
  tostring := Nat.repr
  key := id
  sameName u v := u == v
  sameKey u v := u == v
  sameName_refl _ := beq_self_eq_true _
  sameKey_equiv := ⟨fun _ => beq_self_eq_true _, fun h => by simpa using Eq.symm (by simpa using h),
    fun h h' => by simpa using Eq.trans (by simpa using h) (by simpa using h')⟩

/-- The account {lit}`01` logs in to the player of the account {lit}`1`. -/
theorem accounts_shared : ¬ ∀ es, (∀ e ∈ es, ∀ u, AccountEvent.username e = some u →
    u ∈ ["1", "01"]) → decimalLibrary.Separate (decimalLibrary.run es) := by
  intro h
  have hsep := h [.register "1", .register "01", .loginFirst "01",
    .loginSecond "01" "01" true true] (by simp [AccountEvent.username])
  have howner := hsep.2 ⟨"01", 1, "1"⟩ (by decide) (by decide)
  simp at howner

end BallServer.Login
