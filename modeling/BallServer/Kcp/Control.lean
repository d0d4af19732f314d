import BallServer.Kcp.Segment

/-!
# The control block of KCP

The functions of {lit}`ikcp.c` and {lit}`Kcp.cs` on one end of a link.  The queues are
lists, the counters of their lengths are the lengths, and the output function is the list
of the datagrams it is called with.

Main results:

- Structure {lit}`Kcpcb`: the control block.
- Definitions {lit}`Kcpcb.send`, {lit}`Kcpcb.recv`, {lit}`Kcpcb.input`, {lit}`Kcpcb.flush` and
  {lit}`Kcpcb.update`.
-/

namespace BallServer.Kcp

/-- {lit}`IKCPCB`. -/
structure Kcpcb where
  port : Port
  conv : UInt32
  mtu : UInt32
  mss : UInt32
  sndUna : UInt32
  sndNxt : UInt32
  rcvNxt : UInt32
  ssthresh : UInt32
  rxRttval : Int32
  rxSrtt : Int32
  rxRto : Int32
  rxMinrto : Int32
  sndWnd : UInt32
  rcvWnd : UInt32
  rmtWnd : UInt32
  cwnd : UInt32
  probe : UInt32
  current : UInt32
  interval : UInt32
  tsFlush : UInt32
  nodelay : UInt32
  updated : Bool
  tsProbe : UInt32
  probeWait : UInt32
  incr : UInt32
  fastresend : Int32
  fastlimit : Int32
  nocwnd : Bool
  sndQueue : List Seg
  rcvQueue : List Seg
  sndBuf : List Seg
  rcvBuf : List Seg
  acklist : List (UInt32 × UInt32)
deriving DecidableEq, Repr

def askSend : UInt32 := 1
def askTell : UInt32 := 2

/-- {lit}`IKCP_WND_RCV`. -/
def wndRcv : UInt32 := 128

/-- {lit}`ikcp_create`. -/
def create (port : Port) (conv : UInt32) : Kcpcb where
  port := port
  conv := conv
  mtu := match port with | .ikcp => 1400 | .kcp2k => 1200
  mss := match port with | .ikcp => 1400 - 24 | .kcp2k => 1200 - 24
  sndUna := 0
  sndNxt := 0
  rcvNxt := 0
  ssthresh := 2
  rxRttval := 0
  rxSrtt := 0
  rxRto := 200
  rxMinrto := 100
  sndWnd := 32
  rcvWnd := wndRcv
  rmtWnd := wndRcv
  cwnd := 0
  probe := 0
  current := 0
  interval := 100
  tsFlush := 100
  nodelay := 0
  updated := false
  tsProbe := 0
  probeWait := 0
  incr := 0
  fastresend := 0
  fastlimit := 5
  nocwnd := false
  sndQueue := []
  rcvQueue := []
  sndBuf := []
  rcvBuf := []
  acklist := []

/-- The segment of a packet; the other fields are not read on this side. -/
def Packet.seg (p : Packet) : Seg where
  conv := p.conv
  cmd := p.cmd.toUInt32
  frg := p.frg.toUInt32
  wnd := p.wnd.toUInt32
  ts := p.ts
  sn := p.sn
  una := p.una
  resendts := 0
  rto := 0
  fastack := 0
  xmit := 0
  data := p.data

namespace Kcpcb

/-! ## Settings -/

/-- {lit}`ikcp_nodelay`; {lit}`SetNoDelay` keeps the interval within bounds. -/
def setNodelay (k : Kcpcb) (nodelay interval resend nc : Int32) : Kcpcb :=
  let bounded : UInt32 :=
    if interval.toUInt32 > 5000 then 5000
    else if interval.toUInt32 < 10 then 10
    else interval.toUInt32
  let minrto : Int32 := if nodelay ≠ 0 then 30 else 100
  match k.port with
  | .ikcp =>
      { k with
        nodelay := if nodelay ≥ 0 then nodelay.toUInt32 else k.nodelay
        rxMinrto := if nodelay ≥ 0 then minrto else k.rxMinrto
        interval := if interval ≥ 0 then interval.toUInt32 else k.interval
        fastresend := if resend ≥ 0 then resend else k.fastresend
        nocwnd := if nc ≥ 0 then nc ≠ 0 else k.nocwnd }
  | .kcp2k =>
      { k with
        nodelay := nodelay.toUInt32
        rxMinrto := minrto
        interval := bounded
        fastresend := if resend ≥ 0 then resend else k.fastresend
        nocwnd := nc ≠ 0 }

/-- {lit}`ikcp_wndsize`. -/
def wndsize (k : Kcpcb) (sndwnd rcvwnd : Int32) : Kcpcb :=
  { k with
    sndWnd := if sndwnd > 0 then sndwnd.toUInt32 else k.sndWnd
    rcvWnd := if rcvwnd > 0 then k.port.max rcvwnd.toUInt32 wndRcv else k.rcvWnd }

/-- {lit}`ikcp_setmtu`; what is too small is refused. -/
def setmtu (k : Kcpcb) (mtu : Int32) : Kcpcb :=
  if mtu < 50 then k
  else { k with mtu := mtu.toUInt32, mss := mtu.toUInt32 - 24 }

/-- The settings that {lit}`create_kcp` and {lit}`StartHandshake` make. -/
structure Options where
  nodelay : Int32
  interval : Int32
  resend : Int32
  nc : Int32
  sndwnd : Int32
  rcvwnd : Int32
  mtu : Int32
  minrto : Int32
deriving DecidableEq, Repr

/-- A control block before it is used. -/
def fresh (port : Port) (conv : UInt32) (o : Options) : Kcpcb :=
  { (((create port conv).setNodelay o.nodelay o.interval o.resend o.nc).wndsize
      o.sndwnd o.rcvwnd).setmtu o.mtu with rxMinrto := o.minrto }

/-! ## Messages -/

/-- The fragments of a message: each has the number of those behind it. -/
def fragment (mss : Nat) : Nat → Bytes → List Seg
  | 0, _ => []
  | n + 1, buffer =>
      { conv := 0, cmd := 0, frg := UInt32.ofNat n, wnd := 0, ts := 0, sn := 0, una := 0
        resendts := 0, rto := 0, fastack := 0, xmit := 0, data := buffer.take mss } ::
        fragment mss n (buffer.drop mss)

/-- The number of fragments of a message. -/
def fragCount (mss len : Nat) : Nat := if len ≤ mss then 1 else (len + mss - 1) / mss

/-- A message is too long. -/
def tooLong (k : Kcpcb) (count : Nat) : Bool :=
  match k.port with
  | .ikcp => count ≥ wndRcv.toNat
  | .kcp2k => count > 255 || count ≥ k.rcvWnd.toNat

/-- {lit}`ikcp_send`: {lit}`none` is the exception of {lit}`Send`. -/
def send (k : Kcpcb) (buffer : Bytes) : Kcpcb × Option Int :=
  let count := fragCount k.mss.toNat buffer.length
  if k.tooLong count then
    (k, if k.port = .kcp2k ∧ count > 255 then none else some (-2))
  else
    ({ k with sndQueue := k.sndQueue ++ fragment k.mss.toNat count buffer }, some 0)

/-- The loop that moves what is next from {lit}`rcv_buf` to {lit}`rcv_queue`. -/
def moveReadyLoop (rcvWnd : UInt32) :
    UInt32 → List Seg → List Seg → UInt32 × List Seg × List Seg
  | nxt, [], queue => (nxt, [], queue)
  | nxt, seg :: buf, queue =>
      if seg.sn = nxt ∧ queue.length < rcvWnd.toNat then
        moveReadyLoop rcvWnd (nxt + 1) buf (queue ++ [seg])
      else (nxt, seg :: buf, queue)

def moveReady (k : Kcpcb) : Kcpcb :=
  let r := moveReadyLoop k.rcvWnd k.rcvNxt k.rcvBuf k.rcvQueue
  { k with rcvNxt := r.1, rcvBuf := r.2.1, rcvQueue := r.2.2 }

/-- The first message of a queue, and the rest. -/
def merge : List Seg → Bytes × List Seg
  | [] => ([], [])
  | seg :: queue =>
      if seg.frg = 0 then (seg.data, queue)
      else (seg.data ++ (merge queue).1, (merge queue).2)

/-- {lit}`ikcp_peeksize`; {lit}`none` if there is no whole message. -/
def peeksize (k : Kcpcb) : Option Nat :=
  match k.rcvQueue with
  | [] => none
  | seg :: queue =>
      if seg.frg = 0 then some seg.data.length
      else if k.rcvQueue.length < seg.frg.toNat + 1 then none
      else some (merge (seg :: queue)).1.length

/-- {lit}`ikcp_recv` with a buffer of {lit}`len` bytes. -/
def recv (k : Kcpcb) (len : Nat) : Kcpcb × Except Int Bytes :=
  if k.rcvQueue = [] then (k, .error (-1))
  else
    match k.peeksize with
    | none => (k, .error (-2))
    | some size =>
        if size > len then (k, .error (-3))
        else
          let r := merge k.rcvQueue
          let k' := moveReady { k with rcvQueue := r.2 }
          let recover := k.rcvQueue.length ≥ k.rcvWnd.toNat
          ({ k' with
              probe := if k'.rcvQueue.length < k.rcvWnd.toNat ∧ recover then
                k'.probe ||| askTell else k'.probe }, .ok r.1)

/-! ## Acknowledgements -/

/-- {lit}`ikcp_update_ack`. -/
def updateAck (k : Kcpcb) (rtt : Int32) : Kcpcb :=
  let k :=
    if k.rxSrtt = 0 then { k with rxSrtt := rtt, rxRttval := rtt / 2 }
    else
      let delta := if rtt - k.rxSrtt < 0 then -(rtt - k.rxSrtt) else rtt - k.rxSrtt
      let srtt := (7 * k.rxSrtt + rtt) / 8
      { k with
        rxRttval := (3 * k.rxRttval + delta) / 4
        rxSrtt := if srtt < 1 then 1 else srtt }
  let rto := k.rxSrtt.toUInt32 + k.port.max k.interval (4 * k.rxRttval).toUInt32
  { k with rxRto := (k.port.bound k.rxMinrto.toUInt32 rto 60000).toInt32 }

/-- {lit}`ikcp_shrink_buf`. -/
def shrinkBuf (k : Kcpcb) : Kcpcb :=
  { k with sndUna := match k.sndBuf with | [] => k.sndNxt | seg :: _ => seg.sn }

/-- The loop of {lit}`ikcp_parse_ack`. -/
def removeAck (sn : UInt32) : List Seg → List Seg
  | [] => []
  | seg :: buf =>
      if sn = seg.sn then buf
      else if itimediff sn seg.sn < 0 then seg :: buf
      else seg :: removeAck sn buf

/-- {lit}`ikcp_parse_ack`. -/
def parseAck (k : Kcpcb) (sn : UInt32) : Kcpcb :=
  if itimediff sn k.sndUna < 0 ∨ itimediff sn k.sndNxt ≥ 0 then k
  else { k with sndBuf := removeAck sn k.sndBuf }

/-- What {lit}`ikcp_parse_una` removes. -/
def past : Port → UInt32 → UInt32 → Bool
  | .ikcp, una, sn => itimediff una sn > 0
  | .kcp2k, una, sn => sn < una

/-- {lit}`ikcp_parse_una`. -/
def parseUna (k : Kcpcb) (una : UInt32) : Kcpcb :=
  { k with sndBuf := k.sndBuf.dropWhile fun seg => past k.port una seg.sn }

/-- The comparison of {lit}`ikcp_parse_fastack`. -/
def before : Port → UInt32 → UInt32 → Bool
  | .ikcp, a, b => itimediff a b < 0
  | .kcp2k, a, b => a < b

/-- The loop of {lit}`ikcp_parse_fastack`. -/
def countFastack (port : Port) (sn : UInt32) : List Seg → List Seg
  | [] => []
  | seg :: buf =>
      if before port sn seg.sn then seg :: buf
      else
        (if sn ≠ seg.sn then { seg with fastack := seg.fastack + 1 } else seg) ::
          countFastack port sn buf

/-- {lit}`ikcp_parse_fastack`. -/
def parseFastack (k : Kcpcb) (sn : UInt32) : Kcpcb :=
  if before k.port sn k.sndUna || !before k.port sn k.sndNxt then k
  else { k with sndBuf := countFastack k.port sn k.sndBuf }

/-- {lit}`ikcp_ack_push`. -/
def ackPush (k : Kcpcb) (sn ts : UInt32) : Kcpcb := { k with acklist := k.acklist ++ [(sn, ts)] }

/-! ## Data that arrives -/

/-- The loop of {lit}`ikcp_parse_data`, which comes from the back. -/
def insertBack (new : Seg) : List Seg → List Seg
  | [] => [new]
  | seg :: buf =>
      if seg.sn = new.sn then seg :: buf
      else if itimediff new.sn seg.sn > 0 then new :: seg :: buf
      else seg :: insertBack new buf

/-- {lit}`ikcp_parse_data`. -/
def parseData (k : Kcpcb) (new : Seg) : Kcpcb :=
  if itimediff new.sn (k.rcvNxt + k.rcvWnd) ≥ 0 ∨ itimediff new.sn k.rcvNxt < 0 then k
  else moveReady { k with rcvBuf := (insertBack new k.rcvBuf.reverse).reverse }

/-- The acknowledgements that one call of {lit}`ikcp_input` has met. -/
structure Acked where
  flag : Bool
  maxack : UInt32
  latestTs : UInt32
deriving DecidableEq, Repr

/-- An acknowledgement of one segment. -/
def inputAck (k : Kcpcb) (a : Acked) (p : Packet) : Kcpcb × Acked :=
  let k := if itimediff k.current p.ts ≥ 0 then k.updateAck (k.current - p.ts).toInt32 else k
  ((k.parseAck p.sn).shrinkBuf,
    if !a.flag || itimediff p.sn a.maxack > 0 then ⟨true, p.sn, p.ts⟩ else a)

/-- A segment with data. -/
def inputPush (k : Kcpcb) (p : Packet) : Kcpcb :=
  if itimediff p.sn (k.rcvNxt + k.rcvWnd) < 0 then
    let k := k.ackPush p.sn p.ts
    if itimediff p.sn k.rcvNxt ≥ 0 then k.parseData p.seg else k
  else k

/-- One turn of the loop of {lit}`ikcp_input`. -/
def inputSegment (k : Kcpcb) (a : Acked) (p : Packet) : Kcpcb × Acked :=
  let k := (({ k with rmtWnd := p.wnd.toUInt32 } : Kcpcb).parseUna p.una).shrinkBuf
  if p.cmd = cmdAck then k.inputAck a p
  else if p.cmd = cmdPush then (k.inputPush p, a)
  else if p.cmd = cmdWask then ({ k with probe := k.probe ||| askTell }, a)
  else (k, a)

/-- The loop of {lit}`ikcp_input`; its code is negative if the datagram is refused. -/
def inputLoop (k : Kcpcb) (a : Acked) (data : Bytes) : Kcpcb × Acked × Int :=
  match hdecode : Packet.decode data with
  | none => (k, a, 0)
  | some (p, len, rest) =>
      if p.conv ≠ k.conv then (k, a, -1)
      else if rest.length < len.toNat ∨ len.toInt32 < 0 then (k, a, -2)
      else if p.cmd ≠ cmdPush ∧ p.cmd ≠ cmdAck ∧ p.cmd ≠ cmdWask ∧ p.cmd ≠ cmdWins then
        (k, a, -3)
      else
        let r := k.inputSegment a { p with data := rest.take len.toNat }
        inputLoop r.1 r.2 (rest.drop len.toNat)
termination_by data.length
decreasing_by
  have hlength := Packet.decode_length hdecode
  simp only [List.length_drop, overhead] at *
  omega

/-- The congestion window grows by one segment, or slower. -/
def increase (k : Kcpcb) : Kcpcb :=
  if k.cwnd < k.ssthresh then { k with cwnd := k.cwnd + 1, incr := k.incr + k.mss }
  else
    let incr := if k.incr < k.mss then k.mss else k.incr
    let incr := incr + (k.mss * k.mss / incr + k.mss / 16)
    { k with
      incr := incr
      cwnd := if (k.cwnd + 1) * k.mss ≤ incr then
        (incr + k.mss - 1) / (if k.mss > 0 then k.mss else 1) else k.cwnd }

/-- The end of {lit}`ikcp_input`: the window grows when something has been acknowledged. -/
def grow (k : Kcpcb) (prevUna : UInt32) : Kcpcb :=
  if itimediff k.sndUna prevUna > 0 ∧ k.cwnd < k.rmtWnd then
    let k := k.increase
    if k.cwnd > k.rmtWnd then { k with cwnd := k.rmtWnd, incr := k.rmtWnd * k.mss } else k
  else k

/-- {lit}`ikcp_input`. -/
def input (k : Kcpcb) (data : Bytes) : Kcpcb × Int :=
  if data.length < overhead then (k, -1)
  else
    let r := k.inputLoop ⟨false, 0, 0⟩ data
    if r.2.2 < 0 then (r.1, r.2.2)
    else
      let k' := if r.2.1.flag then r.1.parseFastack r.2.1.maxack else r.1
      (k'.grow k.sndUna, 0)

/-! ## Sending -/

/-- {lit}`ikcp_wnd_unused`. -/
def wndUnused (k : Kcpcb) : UInt32 :=
  if k.rcvQueue.length < k.rcvWnd.toNat then k.rcvWnd - UInt32.ofNat k.rcvQueue.length else 0

/-- The buffer of {lit}`ikcp_flush`, and the datagrams that it has output. -/
structure Out where
  buffer : Bytes
  datagrams : List Bytes
deriving DecidableEq, Repr

/-- {lit}`ikcp_output` ignores an empty buffer, {lit}`output` does not. -/
def Out.output (port : Port) (o : Out) : Out :=
  if port = .ikcp ∧ o.buffer = [] then o else ⟨[], o.datagrams ++ [o.buffer]⟩

/-- A segment is written to the buffer, which is output first if there is no space. -/
def Out.write (port : Port) (mtu : UInt32) (o : Out) (p : Packet) : Out :=
  let o := if o.buffer.length + (overhead + p.data.length) > mtu.toNat then o.output port else o
  { o with buffer := o.buffer ++ p.encode }

/-- A segment without data. -/
def control (k : Kcpcb) (cmd : UInt8) (a : UInt32 × UInt32) : Packet where
  conv := k.conv
  cmd := cmd
  frg := 0
  wnd := k.wndUnused.toUInt16
  ts := a.2
  sn := a.1
  una := k.rcvNxt
  data := []

/-- Flush acknowledges. -/
def flushAcks (k : Kcpcb) : Out :=
  k.acklist.foldl (fun o a => o.write k.port k.mtu (k.control cmdAck a)) ⟨[], []⟩

/-- Probe the window size, if the one of the remote end is zero. -/
def probeWindow (k : Kcpcb) : Kcpcb :=
  if k.rmtWnd = 0 then
    if k.probeWait = 0 then { k with probeWait := 7000, tsProbe := k.current + 7000 }
    else if itimediff k.current k.tsProbe ≥ 0 then
      let wait := if k.probeWait < 7000 then 7000 else k.probeWait
      let wait := wait + wait / 2
      let wait := if wait > 120000 then 120000 else wait
      { k with
        probeWait := wait
        tsProbe := k.current + wait
        probe := k.probe ||| askSend }
    else k
  else { k with tsProbe := 0, probeWait := 0 }

/-- Flush window probing commands; they have the number and the time of the last
acknowledgement that was written. -/
def flushProbes (k : Kcpcb) (o : Out) : Out :=
  let last := k.acklist.getLast?.getD (0, 0)
  let o := if k.probe &&& askSend ≠ 0 then o.write k.port k.mtu (k.control cmdWask last) else o
  if k.probe &&& askTell ≠ 0 then o.write k.port k.mtu (k.control cmdWins last) else o

/-- Calculate the window size. -/
def sendWindow (k : Kcpcb) : UInt32 :=
  let cwnd := imin k.sndWnd k.rmtWnd
  if k.nocwnd then cwnd else imin k.cwnd cwnd

/-- A segment gets its number. -/
def numberSeg (k : Kcpcb) (seg : Seg) (sn : UInt32) : Seg :=
  { seg with
    conv := k.conv
    cmd := cmdPush.toUInt32
    wnd := k.wndUnused
    ts := k.current
    sn := sn
    una := k.rcvNxt
    resendts := k.current
    rto := k.rxRto.toUInt32
    fastack := 0
    xmit := 0 }

/-- The loop that moves segments from {lit}`snd_queue` to {lit}`snd_buf`. -/
def fillLoop (k : Kcpcb) (limit : UInt32) :
    UInt32 → List Seg → List Seg → UInt32 × List Seg × List Seg
  | nxt, [], buf => (nxt, [], buf)
  | nxt, seg :: queue, buf =>
      if itimediff nxt limit < 0 then
        fillLoop k limit (nxt + 1) queue (buf ++ [k.numberSeg seg nxt])
      else (nxt, seg :: queue, buf)

def fill (k : Kcpcb) (cwnd : UInt32) : Kcpcb :=
  let r := k.fillLoop (k.sndUna + cwnd) k.sndNxt k.sndQueue k.sndBuf
  { k with sndNxt := r.1, sndQueue := r.2.1, sndBuf := r.2.2 }

/-- The loop over {lit}`snd_buf`: the segments it has passed, and what it has found. -/
structure Turn where
  done : List Seg
  out : Out
  lost : Bool
  change : UInt32

/-- A segment is sent. -/
def transmit (k : Kcpcb) (t : Turn) (seg : Seg) : Turn :=
  let seg := { seg with ts := k.current, wnd := k.wndUnused, una := k.rcvNxt }
  { t with done := t.done ++ [seg], out := t.out.write k.port k.mtu seg.packet }

/-- {lit}`fastlimit` allows one more transmission. -/
def mayFast (k : Kcpcb) (seg : Seg) : Bool :=
  (match k.port with
    | .ikcp => seg.xmit.toInt32.toInt
    | .kcp2k => (seg.xmit.toNat : Int)) ≤ k.fastlimit.toInt || k.fastlimit ≤ 0

/-- One turn of the loop over {lit}`snd_buf`. -/
def flushSeg (k : Kcpcb) (resent rtomin : UInt32) (t : Turn) (seg : Seg) : Turn :=
  if seg.xmit = 0 then
    k.transmit t { seg with
      xmit := seg.xmit + 1
      rto := k.rxRto.toUInt32
      resendts := k.current + k.rxRto.toUInt32 + rtomin }
  else if itimediff k.current seg.resendts ≥ 0 then
    let rto :=
      if k.nodelay = 0 then seg.rto + k.port.max seg.rto k.rxRto.toUInt32
      else
        let step := if k.nodelay < 2 then seg.rto.toInt32 else k.rxRto
        seg.rto + (step / 2).toUInt32
    { k.transmit t { seg with
        xmit := seg.xmit + 1
        rto := rto
        resendts := k.current + rto } with lost := true }
  else if seg.fastack ≥ resent ∧ k.mayFast seg then
    { k.transmit t { seg with
        xmit := seg.xmit + 1
        fastack := 0
        resendts := k.current + seg.rto } with change := t.change + 1 }
  else { t with done := t.done ++ [seg] }

/-- An eighth of {lit}`rx_rto`; {lit}`Kcp.cs` shifts it as {lit}`uint`. -/
def rtoShift (k : Kcpcb) : UInt32 :=
  match k.port with
  | .ikcp => (k.rxRto >>> 3).toUInt32
  | .kcp2k => k.rxRto.toUInt32 >>> 3

/-- Update the windows after a fast retransmission. -/
def onChange (k : Kcpcb) (resent : UInt32) : Kcpcb :=
  let half := (k.sndNxt - k.sndUna) / 2
  let ssthresh := if half < 2 then 2 else half
  { k with ssthresh := ssthresh, cwnd := ssthresh + resent, incr := (ssthresh + resent) * k.mss }

/-- Update the windows after a loss. -/
def onLost (k : Kcpcb) (cwnd : UInt32) : Kcpcb :=
  { k with ssthresh := if cwnd / 2 < 2 then 2 else cwnd / 2, cwnd := 1, incr := k.mss }

/-- The end of {lit}`ikcp_flush`. -/
def congest (k : Kcpcb) (t : Turn) (resent cwnd : UInt32) : Kcpcb :=
  let k := if t.change ≠ 0 then k.onChange resent else k
  let k := if t.lost then k.onLost cwnd else k
  if k.cwnd < 1 then { k with cwnd := 1, incr := k.mss } else k

/-- {lit}`ikcp_flush`: the state and the datagrams. -/
def flush (k : Kcpcb) : Kcpcb × List Bytes :=
  if !k.updated then (k, [])
  else
    let out := k.flushAcks
    let k := k.probeWindow
    let out := k.flushProbes out
    let k := { k with acklist := [], probe := 0 }
    let cwnd := k.sendWindow
    let k := k.fill cwnd
    let resent : UInt32 := if k.fastresend > 0 then k.fastresend.toUInt32 else 0xffffffff
    let rtomin := if k.nodelay = 0 then k.rtoShift else 0
    let t := k.sndBuf.foldl (k.flushSeg resent rtomin) ⟨[], out, false, 0⟩
    let datagrams :=
      if t.out.buffer = [] then t.out.datagrams else t.out.datagrams ++ [t.out.buffer]
    (({ k with sndBuf := t.done } : Kcpcb).congest t resent cwnd, datagrams)

/-- The time of the next flush is not in the future. -/
def due : Port → UInt32 → UInt32 → Bool
  | .ikcp, current, tsFlush => itimediff current tsFlush ≥ 0
  | .kcp2k, current, tsFlush => current ≥ tsFlush

/-- The start of {lit}`ikcp_update`: a flush that is far away is made now. -/
def tick (k : Kcpcb) (current : UInt32) : Kcpcb :=
  let k := { k with current := current }
  let k := if !k.updated then { k with updated := true, tsFlush := current } else k
  let slap := itimediff current k.tsFlush
  if slap ≥ 10000 ∨ slap < -10000 then { k with tsFlush := current } else k

/-- {lit}`ikcp_update`. -/
def update (k : Kcpcb) (current : UInt32) : Kcpcb × List Bytes :=
  let k := k.tick current
  if itimediff current k.tsFlush ≥ 0 then
    let tsFlush := k.tsFlush + k.interval
    let tsFlush := if due k.port current tsFlush then current + k.interval else tsFlush
    flush { k with tsFlush := tsFlush }
  else (k, [])

end Kcpcb

end BallServer.Kcp
