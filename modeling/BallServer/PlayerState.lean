import Mathlib.Data.Int.Basic

/-!
# The match record of a player

The match service and the rooms keep one record per player in redis, as JSON
under the key {lit}`match:player:<id>`.  Both encode it with {lit}`cjson.encode`
and read it back with {lit}`cjson.decode` followed by {lit}`tonumber`.

The number type matters.  {lit}`cjson` hands every JSON number to Lua as a float,
and {lit}`tonumber` returns a number as it is.  A float with an integral value
equals the integer of that value, but {lit}`tostring` writes the integer three as
{lit}`3` and the float three as {lit}`3.0`.

Main results:

- Inductive {lit}`Number` with {lit}`Number.value`: Lua numbers, as far as these
  services use them.
- Theorem {lit}`encode_decodePlayerState`: loading a record and saving it again
  leaves the JSON text as it was.
-/

namespace BallServer

/-- A Lua number with an integral value: of the integer or of the float subtype.
Every float of the match data comes from a JSON integer below {lit}`10 ^ 14`,
which {lit}`cjson` writes and reads exactly. -/
inductive Number where
  | int (n : Int)
  | flt (n : Int)
deriving DecidableEq, Repr

/-- What Lua's {lit}`==` and arithmetic see of a number. -/
def Number.value : Number → Int
  | .int n => n
  | .flt n => n

@[simp] theorem Number.value_int (n : Int) : (Number.int n).value = n := rfl

@[simp] theorem Number.value_flt (n : Int) : (Number.flt n).value = n := rfl

/-- The numbers of the table {lit}`STATE`. -/
inductive MatchState where
  | idle
  | matching
  | roomAllocating
  | roomPreparing
  | running
deriving DecidableEq, Repr

/-- The JSON object stored in redis.  Absent fields are {lit}`none`. -/
structure StoredState where
  state : MatchState
  modeId : Option Int := none
  roomNode : Option String := none
  roomId : Option Int := none
  room : Option Int := none
  sceneAddr : Option Int := none
  allocVersion : Option Int := none
  agentNode : Option String := none
  agent : Option Int := none
  rankScore : Option Int := none
  segmentId : Option Int := none
  queueEnterMs : Option Int := none
deriving DecidableEq, Repr

/-- The Lua table of a player's match state. -/
structure PlayerState where
  playerid : Nat
  state : MatchState
  modeId : Option Number := none
  roomNode : Option String := none
  roomId : Option Number := none
  room : Option Number := none
  sceneAddr : Option Number := none
  allocVersion : Option Number := none
  agentNode : Option String := none
  agent : Option Number := none
  rankScore : Option Number := none
  segmentId : Option Number := none
  queueEnterMs : Option Number := none
deriving DecidableEq, Repr

/-- The state of a player without a record. -/
def emptyPlayerState (playerid : Nat) : PlayerState where
  playerid := playerid
  state := .idle

/-- Decode the JSON record of a player: every number comes back as a float. -/
def decodePlayerState (raw : StoredState) (playerid : Nat) : PlayerState where
  playerid := playerid
  state := raw.state
  modeId := raw.modeId.map .flt
  roomNode := raw.roomNode
  roomId := raw.roomId.map .flt
  room := raw.room.map .flt
  sceneAddr := raw.sceneAddr.map .flt
  allocVersion := raw.allocVersion.map .flt
  agentNode := raw.agentNode
  agent := raw.agent.map .flt
  rankScore := raw.rankScore.map .flt
  segmentId := raw.segmentId.map .flt
  queueEnterMs := raw.queueEnterMs.map .flt

/-- {lit}`cjson.encode`: JSON does not tell integers from integral floats. -/
def PlayerState.encode (p : PlayerState) : StoredState where
  state := p.state
  modeId := p.modeId.map Number.value
  roomNode := p.roomNode
  roomId := p.roomId.map Number.value
  room := p.room.map Number.value
  sceneAddr := p.sceneAddr.map Number.value
  allocVersion := p.allocVersion.map Number.value
  agentNode := p.agentNode
  agent := p.agent.map Number.value
  rankScore := p.rankScore.map Number.value
  segmentId := p.segmentId.map Number.value
  queueEnterMs := p.queueEnterMs.map Number.value

/-- {lit}`load_player_state`, given what redis returned for the key. -/
def loadPlayerState (playerid : Nat) : Option StoredState → PlayerState
  | none => emptyPlayerState playerid
  | some raw => decodePlayerState raw playerid

private theorem map_flt_map_value (o : Option Int) :
    (o.map Number.flt).map Number.value = o := by
  cases o <;> rfl

/-- Loading a record and saving it again leaves the JSON text as it was. -/
@[simp] theorem encode_decodePlayerState (raw : StoredState) (playerid : Nat) :
    (decodePlayerState raw playerid).encode = raw := by
  simp only [PlayerState.encode, decodePlayerState, map_flt_map_value]

end BallServer
