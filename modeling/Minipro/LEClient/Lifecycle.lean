import Minipro.Library.Emission
import Minipro.Library.Ownership

namespace Minipro.LEClient
open Emission Ownership

inductive Ref where
  | att
  | db
  | gatt
deriving DecidableEq, Repr

inductive Action where
  | openSocket
  | closeSocket
  | acquire (r : Ref)
  | operate (r : Ref)
  | release (r : Ref)
  | closeOnUnref
  | startThread
  | joinThread
  | destroyThread
  | disconnected
  | quit
deriving DecidableEq, Repr

structure Connection where
  socket : Int
  bind : Int
  setsockopt : Int
  connect : Int

structure Calls where
  attNew : Bool
  setCloseOnUnref : Bool
  registerDisconnect : Bool
  dbNew : Bool
  clientNew : Bool
  thread : Except String Unit
  ready : Bool

def abandon (what : String) : Emission Action Int := do
  emit .closeSocket
  perform (.error what)

def l2CapSocket (l : Connection) : Emission Action Int :=
  if l.socket < 0 then perform (.error "L2CapSocket: Failed to create socket")
  else do
    emit .openSocket
    if l.bind < 0 then abandon "L2CapSocket: Failed to bind socket"
    else if l.setsockopt ≠ 0 then abandon "L2CapSocket: Failed to set security level"
    else if l.connect < 0 then abandon "L2CapSocket: Failed to connect socket"
    else return l.socket

structure Object where
  fd : Int := -1
  att : Bool := false
  db : Bool := false
  gatt : Bool := false
  reliableSessionId : UInt32 := 0
  inputThread : Bool := false
deriving DecidableEq, Repr

def awaitReady (this : Object) (c : Calls) : Emission Action Object := do
  perform c.thread
  emit .startThread
  if c.ready then return { this with inputThread := true }
  else do
    -- input_thread_ is a member: its destructor runs, ~LEClient does not.
    emit .destroyThread
    perform (.error "LEClient: Did NOT initialize OK")

def newClient (this : Object) (c : Calls) : Emission Action Object := do
  if c.dbNew = false then do
    emit (.release .att)
    return this
  else do
    emit (.acquire .db)
    emit (.operate .db)
    emit (.operate .att)
    if c.clientNew = false then do
      emit (.release .db)
      emit (.release .att)
      return { this with db := true }
    else do
      emit (.acquire .gatt)
      emit (.operate .db)
      emit (.operate .gatt)
      emit (.operate .gatt)
      emit (.release .db)
      awaitReady { this with db := true, gatt := true } c

def newAtt (this : Object) (c : Calls) : Emission Action Object := do
  if c.attNew = false then return this
  else do
    emit (.acquire .att)
    emit (.operate .att)
    if c.setCloseOnUnref = false then do
      emit (.release .att)
      return { this with att := true }
    else do
      emit .closeOnUnref
      emit (.operate .att)
      if c.registerDisconnect = false then do
        emit (.release .att)
        return { this with att := true }
      else newClient { this with att := true } c

def attach (c : Calls) (fd : Int) : Emission Action Object :=
  if fd < 0 then perform (.error "LEClient: Failed to connect to Bluetooth device")
  else newAtt { fd := fd } c

def construct (l : Connection) (c : Calls) : Emission Action Object := l2CapSocket l >>= attach c

inductive Happening where
  | getSecurity
  | setSecurity (level : Int)
  | readValue
  | readLongValue
  | readMultiple
  | registerNotify
  | unregisterNotify
  | setSignKey
  | writeValue
  | writeLongValue
  | writePrepare (id reply : UInt32)
  | writeExecute
  | serviceChanged
  | printIncludedData
  | disconnected
deriving DecidableEq, Repr

namespace Object

def pointer (this : Object) : Ref → Bool
  | .att => this.att
  | .db => this.db
  | .gatt => this.gatt

def call (this : Object) (r : Ref) : List Action := if this.pointer r then [.operate r] else []
def unref (this : Object) (r : Ref) : List Action := if this.pointer r then [.release r] else []

def happen (this : Object) : Happening → List Action × Object
  | .setSecurity level => (if level < 1 ∨ level > 3 then [] else this.call .gatt,this)
  | .setSignKey => (this.call .att,this)
  | .serviceChanged | .printIncludedData => (this.call .db,this)
  | .writePrepare id reply =>
      if this.reliableSessionId ≠ id then ([],this)
      else (this.call .gatt,{ this with reliableSessionId := reply })
  | .writeExecute => (this.call .gatt,{ this with reliableSessionId := 0 })
  | .disconnected => ([.disconnected,.quit],this)
  | _ => (this.call .gatt,this)

def happenings : Object → List Happening → List Action
  | _, [] => []
  | this, h :: hs => (this.happen h).1 ++ (this.happen h).2.happenings hs

def destroy (this : Object) : List Action :=
  [.quit] ++ this.unref .gatt ++ this.unref .att ++ [.joinThread] ++
    if this.inputThread then [.destroyThread] else []

end Object

def lifetime (l : Connection) (c : Calls) (hs : List Happening) : List Action :=
  (construct l c).out ++ match (construct l c).result with
    | .ok this => this.happenings hs ++ this.destroy
    | .error _ => []

inductive Socket where
  | none
  | opened
  | closed
deriving DecidableEq, Repr

structure Heap where
  att : Nat := 0
  db : Nat := 0
  gatt : Nat := 0
  closeOnDestroy : Bool := false
  io : Bool := false
  clientAtt : Bool := false
  socket : Socket := .none
deriving DecidableEq, Repr

namespace Heap

def ioDestroy (h : Heap) : Heap :=
  if h.io then { h with io := false, socket := if h.closeOnDestroy then .closed else h.socket }
  else h

def unrefAtt (h : Heap) : Heap :=
  if h.att = 1 then ioDestroy { h with att := 0 } else { h with att := h.att-1 }

def dropClientAtt (h : Heap) : Heap :=
  if h.clientAtt then unrefAtt { h with clientAtt := false } else h

def unrefDb (h : Heap) : Heap := { h with db := h.db-1 }

def unrefGatt (h : Heap) : Heap :=
  if h.gatt = 1 then (dropClientAtt { h with gatt := 0 }).unrefDb else { h with gatt := h.gatt-1 }

def disconnect (h : Heap) : Heap :=
  if h.io then
    let h := h.ioDestroy
    unrefAtt (dropClientAtt { h with att := h.att+1 })
  else h

def step (h : Heap) : Action → Heap
  | .openSocket => { h with socket := .opened }
  | .closeSocket => { h with socket := .closed }
  | .acquire .att => { h with att := 1, io := true }
  | .acquire .db => { h with db := 1 }
  | .acquire .gatt => { h with gatt := 1, att := h.att+1, db := h.db+1, clientAtt := true }
  | .release .att => h.unrefAtt
  | .release .db => h.unrefDb
  | .release .gatt => h.unrefGatt
  | .closeOnUnref => { h with closeOnDestroy := true }
  | .disconnected => h.disconnect
  | _ => h

end Heap

def heap (trace : List Action) : Heap := trace.foldl Heap.step {}

abbrev Holds (r : Ref) (past : List Action) : Prop := Owned (.acquire r) (.release r) past
abbrev Running (past : List Action) : Prop := Owned .startThread .joinThread past

def Allowed (past : List Action) : Action → Prop
  | .operate .db => Holds .db past ∨ Holds .gatt past
  | .operate r => Holds r past
  | .release r => Holds r past
  | .joinThread => Running past
  | .destroyThread => ¬ Running past
  | _ => True

instance : ∀ past a, Decidable (Allowed past a)
  | past,.operate .db => inferInstanceAs (Decidable (Holds .db past ∨ Holds .gatt past))
  | past,.operate .att => inferInstanceAs (Decidable (Holds .att past))
  | past,.operate .gatt => inferInstanceAs (Decidable (Holds .gatt past))
  | past,.release r => inferInstanceAs (Decidable (Holds r past))
  | past,.joinThread => inferInstanceAs (Decidable (Running past))
  | past,.destroyThread => inferInstanceAs (Decidable (¬ Running past))
  | _,.openSocket | _,.closeSocket | _,.acquire _ | _,.closeOnUnref | _,.startThread
  | _,.disconnected | _,.quit => isTrue trivial

structure Disciplined (trace : List Action) : Prop where
  released : ∀ r, trace.count (.release r) = trace.count (.acquire r)
  permitted : Permitted Allowed [] trace
  joined : trace.count .joinThread = trace.count .startThread
  closed : (heap trace).socket ≠ .opened

def Connection.Succeeds (l : Connection) : Prop :=
  0 ≤ l.socket ∧ 0 ≤ l.bind ∧ l.setsockopt = 0 ∧ 0 ≤ l.connect

def Calls.Complete (c : Calls) : Prop := c = ⟨true,true,true,true,true,.ok (),true⟩

def Quiet (this : Object) (a : Action) : Prop :=
  a = .disconnected ∨ a = .quit ∨ ∃ r, a = .operate r ∧ this.pointer r

theorem call_quiet (this : Object) (r : Ref) : ∀ a ∈ this.call r, Quiet this a := by
  simp only [Object.call]
  split
  · next h =>
    intro a ha
    exact .inr (.inr ⟨r,List.mem_singleton.mp ha,h⟩)
  · simp

theorem happen_setSecurity (this : Object) (level : Int) :
    this.happen (.setSecurity level) =
      (if level < 1 ∨ level > 3 then [] else this.call .gatt,this) := rfl

theorem happen_writePrepare (this : Object) (id reply : UInt32) :
    this.happen (.writePrepare id reply) =
      if this.reliableSessionId ≠ id then ([],this)
      else (this.call .gatt,{ this with reliableSessionId := reply }) := rfl

theorem happen_quiet (this : Object) (h : Happening) : ∀ a ∈ (this.happen h).1, Quiet this a := by
  cases h with
  | setSecurity level =>
    rw [happen_setSecurity]
    split
    · simp
    · exact call_quiet this .gatt
  | writePrepare id reply =>
    rw [happen_writePrepare]
    split
    · simp
    · exact call_quiet this .gatt
  | disconnected =>
    show ∀ a ∈ [.disconnected,.quit], Quiet this a
    simp [Quiet]
  | setSignKey => exact call_quiet this .att
  | serviceChanged => exact call_quiet this .db
  | printIncludedData => exact call_quiet this .db
  | _ => exact call_quiet this .gatt

theorem happen_pointer (this : Object) (h : Happening) (r : Ref) :
    (this.happen h).2.pointer r = this.pointer r := by
  cases h with
  | writePrepare id reply =>
    rw [happen_writePrepare]
    split <;> cases r <;> rfl
  | _ => cases r <;> rfl

theorem happenings_quiet (this : Object) (hs : List Happening) :
    ∀ a ∈ this.happenings hs, Quiet this a := by
  induction hs generalizing this with
  | nil => simp [Object.happenings]
  | cons h hs ih =>
    intro a ha
    rcases List.mem_append.mp ha with ha | ha
    · exact happen_quiet this h a ha
    · have hq := ih (this.happen h).2 a ha
      simpa only [Quiet,happen_pointer] using hq

theorem happenings_count (this : Object) (hs : List Happening) {a : Action}
    (ha : ¬ Quiet this a) : (this.happenings hs).count a = 0 :=
  List.count_eq_zero_of_not_mem fun h => ha (happenings_quiet this hs a h)

theorem destroy_count_start (this : Object) : this.destroy.count .startThread = 0 := by
  obtain ⟨fd,att,db,gatt,id,inputThread⟩ := this
  cases att <;> cases gatt <;> cases inputThread <;> rfl

theorem destroy_count_join (this : Object) : this.destroy.count .joinThread = 1 := by
  obtain ⟨fd,att,db,gatt,id,inputThread⟩ := this
  cases att <;> cases gatt <;> cases inputThread <;> rfl

theorem l2CapSocket_succeeds {l : Connection} (h : l.Succeeds) :
    l2CapSocket l = ⟨[.openSocket],.ok l.socket⟩ := by
  obtain ⟨h1,h2,h3,h4⟩ := h
  simp only [l2CapSocket,h1.not_gt,h2.not_gt,h3,h4.not_gt,if_false,ne_eq,not_true]
  rfl

theorem construct_connected {l : Connection} (h : l.Succeeds) (c : Calls) :
    (construct l c).out = .openSocket :: (newAtt { fd := l.socket } c).out ∧
      (construct l c).result = (newAtt { fd := l.socket } c).result := by
  have hb := bind_of_ok (congrArg result (l2CapSocket_succeeds h)) (attach c)
  rw [attach,if_neg h.1.not_gt,congrArg out (l2CapSocket_succeeds h)] at hb
  exact hb

theorem l2CapSocket_fails {l : Connection} (h : ¬ l.Succeeds) :
    ((l2CapSocket l).out = [] ∨ (l2CapSocket l).out = [.openSocket,.closeSocket]) ∧
      ∃ what, (l2CapSocket l).result = .error what := by
  simp only [l2CapSocket]
  split
  · exact ⟨.inl rfl,_,rfl⟩
  split
  · exact ⟨.inr rfl,_,rfl⟩
  split
  · exact ⟨.inr rfl,_,rfl⟩
  split
  · exact ⟨.inr rfl,_,rfl⟩
  · next h1 h2 h3 h4 =>
    exact absurd ⟨not_lt.mp h1,not_lt.mp h2,not_not.mp h3,not_lt.mp h4⟩ h

theorem lifetime_unconnected {l : Connection} (h : ¬ l.Succeeds) (c : Calls) (hs : List Happening) :
    lifetime l c hs = [] ∨ lifetime l c hs = [.openSocket,.closeSocket] := by
  obtain ⟨ho,what,hr⟩ := l2CapSocket_fails h
  obtain ⟨hbo,hbr⟩ := bind_of_error hr (attach c)
  simpa only [lifetime,construct,hbo,hbr,List.append_nil] using ho

theorem half_built {l : Connection} (h : l.Succeeds) {c : Calls} {this : Object} (hs : List Happening)
    (hr : (newAtt { fd := l.socket } c).result = .ok this)
    (hn : (newAtt { fd := l.socket } c).out.count .startThread = 0) :
    ¬ Disciplined (lifetime l c hs) := by
  intro hd
  have hj := hd.joined
  obtain ⟨ho,hre⟩ := construct_connected h c
  have hq : (this.happenings hs).count .startThread = 0 :=
    happenings_count this hs (by simp [Quiet])
  simp only [lifetime,ho,hre,hr,List.count_append,List.count_cons,hn,hq,destroy_count_start,
    destroy_count_join] at hj
  simp at hj

theorem lifetime_thrown {l : Connection} (h : l.Succeeds) {c : Calls} {what : String}
    (hs : List Happening) (hr : (newAtt { fd := l.socket } c).result = .error what) :
    lifetime l c hs = .openSocket :: (newAtt { fd := l.socket } c).out := by
  obtain ⟨ho,hre⟩ := construct_connected h c
  simp only [lifetime,ho,hre,hr,List.append_nil]

theorem disciplined_complete_of {l : Connection} (h : l.Succeeds) {c : Calls} {hs : List Happening}
    (hd : Disciplined (lifetime l c hs)) : c.Complete := by
  obtain ⟨attNew,setCloseOnUnref,registerDisconnect,dbNew,clientNew,thread,ready⟩ := c
  cases attNew with
  | false => exact absurd hd (half_built h hs rfl rfl)
  | true =>
  cases setCloseOnUnref with
  | false => exact absurd hd (half_built h hs rfl rfl)
  | true =>
  cases registerDisconnect with
  | false => exact absurd hd (half_built h hs rfl rfl)
  | true =>
  cases dbNew with
  | false => exact absurd hd (half_built h hs rfl rfl)
  | true =>
  cases clientNew with
  | false => exact absurd hd (half_built h hs rfl rfl)
  | true =>
  cases thread with
  | error what =>
    have hg := hd.released .gatt
    rw [lifetime_thrown h hs rfl] at hg
    cases hg
  | ok u =>
  cases ready with
  | false =>
    have hj := hd.joined
    rw [lifetime_thrown h hs rfl] at hj
    cases hj
  | true => rfl

def opening : List Action :=
  [.openSocket,.acquire .att,.operate .att,.closeOnUnref,.operate .att,.acquire .db,.operate .db,
    .operate .att,.acquire .gatt,.operate .db,.operate .gatt,.operate .gatt,.release .db,
    .startThread]

def closing : List Action := [.quit,.release .gatt,.release .att,.joinThread,.destroyThread]

def Object.complete (fd : Int) : Object :=
  { fd := fd, att := true, db := true, gatt := true, inputThread := true }

theorem lifetime_complete {l : Connection} (h : l.Succeeds) {c : Calls} (hc : c.Complete)
    (hs : List Happening) :
    lifetime l c hs = opening ++ ((Object.complete l.socket).happenings hs ++ closing) := by
  subst hc
  obtain ⟨ho,hre⟩ := construct_connected h ⟨true,true,true,true,true,.ok (),true⟩
  simp only [lifetime]
  rw [ho,hre]
  rfl

theorem quiet_not_mem {this : Object} {es : List Action} (hq : ∀ a ∈ es, Quiet this a)
    {a : Action} (ha : ¬ Quiet this a) : a ∉ es := fun h => ha (hq a h)

theorem quiet_holds {this : Object} {es : List Action} (hq : ∀ a ∈ es, Quiet this a) (r : Ref)
    (past post : List Action) : Holds r (past ++ (es ++ post)) ↔ Holds r (past ++ post) :=
  owned_insert past post (quiet_not_mem hq (by simp [Quiet])) (quiet_not_mem hq (by simp [Quiet]))

theorem quiet_running {this : Object} {es : List Action} (hq : ∀ a ∈ es, Quiet this a)
    (past post : List Action) : Running (past ++ (es ++ post)) ↔ Running (past ++ post) :=
  owned_insert past post (quiet_not_mem hq (by simp [Quiet])) (quiet_not_mem hq (by simp [Quiet]))

theorem quiet_allowed {this : Object} {es : List Action} (hq : ∀ a ∈ es, Quiet this a)
    (past post : List Action) (a : Action) :
    Allowed (past ++ (es ++ post)) a ↔ Allowed (past ++ post) a := by
  cases a with
  | operate r =>
    cases r with
    | att => exact quiet_holds hq .att past post
    | db => exact or_congr (quiet_holds hq .db past post) (quiet_holds hq .gatt past post)
    | gatt => exact quiet_holds hq .gatt past post
  | release r => exact quiet_holds hq r past post
  | joinThread => exact quiet_running hq past post
  | destroyThread => exact not_congr (quiet_running hq past post)
  | _ => exact Iff.rfl

theorem quiet_permitted {this : Object} {es : List Action} (hq : ∀ a ∈ es, Quiet this a) :
    Permitted Allowed opening es := by
  refine (permitted_iff Allowed opening es).mpr ?_
  rintro pre a post rfl
  have hp : ∀ b ∈ pre, Quiet this b := fun b hb => hq b (List.mem_append_left _ hb)
  rw [← List.append_nil pre,quiet_allowed hp,List.append_nil]
  rcases hq a (by simp) with rfl | rfl | ⟨r,rfl,-⟩
  · trivial
  · trivial
  · cases r <;> decide

theorem closing_permitted {this : Object} {es : List Action} (hq : ∀ a ∈ es, Quiet this a) :
    Permitted Allowed (opening ++ es) closing := by
  have hc : Permitted Allowed opening closing := by decide
  rw [permitted_iff] at hc ⊢
  intro pre a post h
  rw [List.append_assoc,quiet_allowed hq]
  exact hc pre a post h

def linked : Heap :=
  { att := 2, db := 1, gatt := 1, closeOnDestroy := true, io := true, clientAtt := true,
    socket := .opened }

def unlinked : Heap :=
  { att := 1, db := 1, gatt := 1, closeOnDestroy := true, io := false, clientAtt := false,
    socket := .closed }

theorem quiet_heap (this : Object) (es : List Action) (hq : ∀ a ∈ es, Quiet this a) {h : Heap}
    (hh : h = linked ∨ h = unlinked) :
    es.foldl Heap.step h = linked ∨ es.foldl Heap.step h = unlinked := by
  induction es generalizing h with
  | nil => exact hh
  | cons a es ih =>
    refine ih (fun b hb => hq b (List.mem_cons_of_mem a hb)) ?_
    rcases hq a List.mem_cons_self with rfl | rfl | ⟨r,rfl,-⟩
    · right
      rcases hh with rfl | rfl <;> rfl
    · exact hh
    · exact hh

theorem lifetime_closed (this : Object) {es : List Action} (hq : ∀ a ∈ es, Quiet this a) :
    (heap (opening ++ (es ++ closing))).socket = .closed := by
  simp only [heap]
  rw [List.foldl_append,List.foldl_append]
  rcases quiet_heap this es hq (h := opening.foldl Heap.step {}) (.inl rfl) with he | he <;>
    rw [he] <;> rfl

theorem disciplined_complete (this : Object) {es : List Action} (hq : ∀ a ∈ es, Quiet this a) :
    Disciplined (opening ++ (es ++ closing)) := by
  have hn (a : Action) (ha : ¬ Quiet this a) : es.count a = 0 :=
    List.count_eq_zero_of_not_mem (quiet_not_mem hq ha)
  constructor
  · intro r
    simp only [List.count_append,hn (.release r) (by simp [Quiet]),
      hn (.acquire r) (by simp [Quiet])]
    cases r <;> rfl
  · rw [permitted_append,permitted_append]
    exact ⟨by decide,quiet_permitted hq,closing_permitted hq⟩
  · simp only [List.count_append,hn .joinThread (by simp [Quiet]),hn .startThread (by simp [Quiet])]
    rfl
  · rw [lifetime_closed this hq]
    decide

theorem disciplined_iff (l : Connection) (c : Calls) (hs : List Happening) :
    Disciplined (lifetime l c hs) ↔ ¬ l.Succeeds ∨ c.Complete := by
  by_cases h : l.Succeeds
  · constructor
    · exact fun hd => .inr (disciplined_complete_of h hd)
    · intro hc
      rw [lifetime_complete h (hc.resolve_left (not_not.mpr h))]
      exact disciplined_complete _ (happenings_quiet _ hs)
  · refine iff_of_true ?_ (.inl h)
    rcases lifetime_unconnected h c hs with he | he <;> rw [he]
    · exact ⟨fun _ => rfl,trivial,rfl,by decide⟩
    · exact ⟨fun _ => rfl,by simp [Permitted,Allowed],rfl,by decide⟩

theorem late_device_undisciplined :
    ¬ ∀ (l : Connection) (c : Calls) (hs : List Happening), Disciplined (lifetime l c hs) := by
  intro h
  have hj := (h ⟨3,0,0,0⟩ ⟨true,true,true,true,true,.ok (),false⟩ []).joined
  cases hj

end Minipro.LEClient
