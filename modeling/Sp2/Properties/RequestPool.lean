import Sp2.Devices.AtaSteps
import Sp2.Devices.RequestPool
import Sp2.Lib.History
import Sp2.Lib.Linked

/-!
The pool of disk requests under preemption.

* `RequestPoint.owned`: the request that a process has.
* `RequestsPooled`: the free list is a chain of the requests that no process has, each once, and no
  two processes have the same one.
* `FindsHead`: a write of `_free_disk_requests` finds the list as it was read.
* `RequestMove`, `RequestsPooled.step_iff`: an event keeps the pool exactly if it does.
* `requests_pooled_iff`: so does a run, whatever the order of the accesses.
* `RequestStack`, `stackStep`: the pool as a stack whose operations are not interrupted.
* `RequestPool.headWrites`: the writes of the head as operations on that stack.
* `requests_linearized`: **the pool is that stack** in the runs that keep it, the operations being
  those of the writes of the head, in their order.
* `ata_stack`: the free list of the driver is that stack too.
-/

namespace Sp2

open Transition Linked

/-! ### The statement -/

/-- The request that a process has, from the write that takes it out of the free list to the one
that puts it back. -/
def RequestPoint.owned : RequestPoint → Option RequestId
  | .clear dr _ | .holds dr | .readHead dr | .link dr _ | .push dr => some dr
  | .outside | .readFree | .readNext _ | .pop _ _ => none

/-- What the processes have. -/
def RequestPool.owned (s : RequestPool) (p : PcbId) : Option RequestId := (s.points p).owned

/-- The free list is acyclic and has exactly the requests that no process has, and no two processes
have the same one. -/
structure RequestsPooled (s : RequestPool) : Prop where
  free_list : ∃ l, Chain s.next s.freeDiskRequests l ∧ ∀ r, r ∈ l ↔ ∀ p, r ∉ s.owned p
  distinct : ∀ p q, ∀ r ∈ s.owned p, r ∈ s.owned q → p = q

/-- If the process is about to write `_free_disk_requests`, that is as it was read, and so is the
link of the request that it is about to take. -/
def RequestPoint.FindsHead (s : RequestPool) : RequestPoint → Prop
  | .pop dr next => s.freeDiskRequests = some dr ∧ s.next dr = next
  | .push dr => s.freeDiskRequests = s.next dr
  | _ => True

/-- What the process finds where the event is an access. -/
def FindsHead (s : RequestPool) : RequestEvent → Prop
  | .run p => (s.points p).FindsHead s
  | _ => True

instance (s : RequestPool) : (point : RequestPoint) → Decidable (point.FindsHead s)
  | .pop _ _ => inferInstanceAs (Decidable (_ ∧ _))
  | .push dr => inferInstanceAs (Decidable (s.freeDiskRequests = s.next dr))
  | .outside | .readFree | .readNext _ | .clear _ _ | .holds _ | .readHead _ | .link _ _ =>
      inferInstanceAs (Decidable True)

instance (s : RequestPool) : (e : RequestEvent) → Decidable (FindsHead s e)
  | .run p => inferInstanceAs (Decidable ((s.points p).FindsHead s))
  | .alloc _ | .write _ _ _ | .dealloc _ _ => inferInstanceAs (Decidable True)

/-! ### The operations on the pool -/

/-- The pool with operations that are not interrupted. -/
@[ext] structure RequestStack where
  free : List RequestId
  owned : PcbId → Option RequestId

/-- A process takes the request on top, or puts its own there. -/
inductive StackOp
  | take (p : PcbId)
  | give (p : PcbId)
  deriving DecidableEq

/-- What an operation does. -/
def RequestStack.after (s : RequestStack) : StackOp → RequestStack
  | .take p =>
      match s.free with
      | r :: rest => ⟨rest, Function.update s.owned p (some r)⟩
      | [] => s
  | .give p =>
      match s.owned p with
      | some r => ⟨r :: s.free, Function.update s.owned p none⟩
      | none => s

/-- A process takes a request if it has none, and gives one back if it has one. -/
def StackAllowed (s : RequestStack) : StackOp → Prop
  | .take p => s.owned p = none ∧ s.free ≠ []
  | .give p => ∃ r, s.owned p = some r

/-- A step of the stack: it never stops. -/
def stackStep (s : RequestStack) (op : StackOp) : Except Empty RequestStack := .ok (s.after op)

/-- All requests are on the stack. -/
def RequestStack.full : RequestStack := ⟨(List.finRange 256).reverse, fun _ => none⟩

/-- The operation that a process is about to complete: the write of `_free_disk_requests` is the
last access to the list. -/
def RequestPoint.headWrites (p : PcbId) : RequestPoint → List StackOp
  | .pop _ _ => [.take p]
  | .push _ => [.give p]
  | _ => []

/-- The operation that an event completes. -/
def RequestPool.headWrites (s : RequestPool) : RequestEvent → List StackOp
  | .run p => (s.points p).headWrites p
  | _ => []

/-! ### One access -/

section Access

variable {s s' : RequestPool} {p q : PcbId} {dr r : RequestId} {next : Option RequestId}
  {e : RequestEvent} {point : RequestPoint} {l : List RequestId}

lemma RequestPool.owned_of (hpoint : s.points p = point) : s.owned p = point.owned := by
  rw [owned, hpoint]

lemma owned_self (point : RequestPoint) (hpoints : s'.points = Function.update s.points p point) :
    s'.owned p = point.owned :=
  RequestPool.owned_of (by rw [hpoints, Function.update_self])

lemma owned_other (point : RequestPoint) (hpoints : s'.points = Function.update s.points p point)
    (hq : q ≠ p) : s'.owned q = s.owned q := by
  rw [RequestPool.owned, hpoints, Function.update_of_ne hq, RequestPool.owned]

/-- A process goes on with what it has. -/
lemma owned_congr (point : RequestPoint) (hpoints : s'.points = Function.update s.points p point)
    (howned : point.owned = s.owned p) : s'.owned = s.owned := by
  funext q
  by_cases hq : q = p
  · subst hq
    rw [owned_self point hpoints, howned]
  · exact owned_other point hpoints hq

/-- Nobody else has the request. -/
lemma RequestsPooled.owned_iff (hs : RequestsPooled s) (howned : s.owned p = some dr) :
    dr ∈ s.owned q ↔ q = p :=
  ⟨fun hq => hs.distinct q p dr hq howned, fun hq => hq ▸ howned⟩

/-- The free list stays the same, and every process has what it had. -/
lemma RequestsPooled.keep (hs : RequestsPooled s) (hnext : s'.next = s.next)
    (hfree : s'.freeDiskRequests = s.freeDiskRequests) (howned : s'.owned = s.owned) :
    RequestsPooled s' := by
  refine ⟨?_, ?_⟩
  · rw [hnext, hfree, howned]
    exact hs.free_list
  · rw [howned]
    exact hs.distinct

/-- So it does where the link of a request is written that a process has. -/
lemma RequestsPooled.relink (hs : RequestsPooled s) (hdr : s.owned p = some dr)
    (hnext : s'.next = Function.update s.next dr next)
    (hfree : s'.freeDiskRequests = s.freeDiskRequests) (howned : s'.owned = s.owned) :
    RequestsPooled s' := by
  obtain ⟨l, hl, hmem⟩ := hs.free_list
  have hnot : dr ∉ l := fun h => (hmem dr).mp h p hdr
  refine ⟨⟨l, ?_, fun r => ?_⟩, ?_⟩
  · rw [hnext, hfree]
    exact hl.update hnot
  · rw [howned]
    exact hmem r
  · rw [howned]
    exact hs.distinct

/-! ### The two writes of the head -/

/-- What no process has where only one process has something else. -/
lemma unowned_split (hothers : ∀ q, q ≠ p → s'.owned q = s.owned q) :
    (∀ q, r ∉ s'.owned q) ↔ r ∉ s'.owned p ∧ ∀ q, q ≠ p → r ∉ s.owned q := by
  constructor
  · exact fun hr => ⟨hr p, fun q hq => hothers q hq ▸ hr q⟩
  · rintro ⟨hp, hr⟩ q
    by_cases hq : q = p
    · exact hq ▸ hp
    · rw [hothers q hq]
      exact hr q hq

/-- A request is taken out of the free list. -/
structure Pops (p : PcbId) (dr : RequestId) (next : Option RequestId) (s s' : RequestPool) :
    Prop where
  before : s.owned p = none
  next_eq : s'.next = s.next
  free : s'.freeDiskRequests = next
  owner : s'.owned p = some dr
  others : ∀ q, q ≠ p → s'.owned q = s.owned q

lemma Pops.unowned_iff (h : Pops p dr next s s') :
    (∀ q, r ∉ s'.owned q) ↔ (∀ q, r ∉ s.owned q) ∧ r ≠ dr := by
  rw [unowned_split h.others, unowned_split (s := s) fun _ _ => rfl, h.before, h.owner,
    Option.mem_some_iff, eq_comm (a := dr)]
  simp [and_comm]

/-- A pop that finds the head takes it. -/
lemma RequestsPooled.pop (hs : RequestsPooled s) (h : Pops p dr next s s')
    (hhead : s.freeDiskRequests = some dr) (hnext : s.next dr = next) : RequestsPooled s' := by
  obtain ⟨l, hl, hmem⟩ := hs.free_list
  rw [hhead] at hl
  obtain ⟨rest, rfl, hrest⟩ := chain_some.mp hl
  have hnd := List.nodup_cons.mp hl.nodup
  have hfresh : ∀ q, dr ∉ s.owned q := (hmem dr).mp List.mem_cons_self
  refine ⟨⟨rest, ?_, fun r => ?_⟩, fun q q' r hr hr' => ?_⟩
  · rw [h.next_eq, h.free, ← hnext]
    exact hrest
  · rw [h.unowned_iff, ← hmem r, List.mem_cons]
    constructor
    · exact fun hr => ⟨Or.inr hr, fun heq => hnd.1 (heq ▸ hr)⟩
    · rintro ⟨heq | hr, hne⟩
      · exact absurd heq hne
      · exact hr
  · -- the request that is taken is nobody's, so only the other ones can be shared
    have hold : ∀ q, q ≠ p → r ∈ s'.owned q → r ∈ s.owned q ∧ r ≠ dr := by
      intro q hq hr
      rw [h.others q hq] at hr
      exact ⟨hr, fun heq => hfresh q (heq ▸ hr)⟩
    have hmine : r ∈ s'.owned p → r = dr := by
      rw [h.owner]
      exact fun heq => (Option.mem_some_iff.mp heq).symm
    by_cases hq : q = p <;> by_cases hq' : q' = p
    · rw [hq, hq']
    · exact absurd (hmine (hq ▸ hr)) (hold q' hq' hr').2
    · exact absurd (hmine (hq' ▸ hr')) (hold q hq hr).2
    · exact hs.distinct q q' r (hold q hq hr).1 (hold q' hq' hr').1

/-- A pop keeps the pool only if it finds the head. -/
lemma RequestsPooled.of_pop (hs : RequestsPooled s) (h : Pops p dr next s s')
    (hs' : RequestsPooled s') : s.freeDiskRequests = some dr ∧ s.next dr = next := by
  obtain ⟨l, hl, hmem⟩ := hs.free_list
  obtain ⟨l', hl', hmem'⟩ := hs'.free_list
  rw [h.next_eq, h.free] at hl'
  have hmem_iff : ∀ r, r ∈ l' ↔ r ∈ l ∧ r ≠ dr := fun r => by
    rw [hmem' r, h.unowned_iff, hmem r]
  have hin : dr ∈ l := by
    refine (hmem dr).mpr fun q hq => ?_
    have hne : q ≠ p := fun heq => by
      rw [heq, h.before] at hq
      exact Option.not_mem_none dr hq
    exact hne ((hs'.owned_iff h.owner).mp (h.others q hne ▸ hq))
  obtain ⟨pre, post, rfl⟩ := List.append_of_mem hin
  rcases List.eq_nil_or_concat pre with rfl | ⟨pre, k, rfl⟩
  · obtain ⟨hhead, hpost⟩ := chain_cons.mp hl
    have hnd := List.nodup_cons.mp hl.nodup
    refine ⟨hhead, hpost.head_unique hl' fun r => ?_⟩
    rw [hmem_iff r, List.nil_append, List.mem_cons]
    constructor
    · exact fun hr => ⟨Or.inr hr, fun heq => hnd.1 (heq ▸ hr)⟩
    · rintro ⟨heq | hr, hne⟩
      · exact absurd heq hne
      · exact hr
  · -- the request before the one taken would still be linked to it
    rw [List.concat_eq_append] at hl hmem_iff
    have hlink : s.next k = some dr := by
      rw [List.append_assoc] at hl
      exact (chain_cons.mp (chain_cons.mp (Chain.suffix pre hl)).2).1
    have hne : k ≠ dr := by
      rintro rfl
      have hnd := hl.nodup
      rw [List.append_assoc] at hnd
      exact (List.nodup_cons.mp (List.nodup_append.mp hnd).2.1).1 (by simp)
    have hk : k ∈ l' := (hmem_iff k).mpr ⟨by simp, hne⟩
    exact absurd rfl ((hmem_iff dr).mp (hl'.mem_of_next hk hlink)).2

/-- A request is put into the free list. -/
structure Pushes (p : PcbId) (dr : RequestId) (s s' : RequestPool) : Prop where
  before : s.owned p = some dr
  next_eq : s'.next = s.next
  free : s'.freeDiskRequests = some dr
  owner : s'.owned p = none
  others : ∀ q, q ≠ p → s'.owned q = s.owned q

lemma Pushes.unowned_iff (h : Pushes p dr s s') (hs : RequestsPooled s) :
    (∀ q, r ∉ s'.owned q) ↔ r = dr ∨ ∀ q, r ∉ s.owned q := by
  rw [unowned_split h.others, unowned_split (s := s) fun _ _ => rfl, h.before, h.owner,
    Option.mem_some_iff]
  have hnone := Option.not_mem_none r
  constructor
  · rintro ⟨-, hothers⟩
    exact (eq_or_ne r dr).imp_right fun hne => ⟨hne.symm, hothers⟩
  · rintro (rfl | ⟨-, hothers⟩)
    · exact ⟨hnone, fun q hq hr => hq ((hs.owned_iff h.before).mp hr)⟩
    · exact ⟨hnone, hothers⟩

/-- **A push keeps the pool exactly if it finds the head.** -/
lemma RequestsPooled.push_iff (hs : RequestsPooled s) (h : Pushes p dr s s') :
    RequestsPooled s' ↔ s.freeDiskRequests = s.next dr := by
  obtain ⟨l, hl, hmem⟩ := hs.free_list
  have hnot : dr ∉ l := fun hin => (hmem dr).mp hin p h.before
  have hmem' : ∀ r, (∀ q, r ∉ s'.owned q) ↔ r ∈ dr :: l := fun r => by
    rw [h.unowned_iff hs, List.mem_cons, hmem r]
  constructor
  · rintro ⟨⟨l', hl', hin'⟩, -⟩
    rw [h.next_eq, h.free] at hl'
    obtain ⟨rest, rfl, hrest⟩ := chain_some.mp hl'
    have hnd := List.nodup_cons.mp hl'.nodup
    refine hl.head_unique hrest fun r => ?_
    have hr := (hin' r).trans (hmem' r)
    rw [List.mem_cons, List.mem_cons] at hr
    by_cases heq : r = dr
    · subst heq
      exact iff_of_false hnot hnd.1
    · rw [or_iff_right heq, or_iff_right heq] at hr
      exact hr.symm
  · intro hhead
    refine ⟨⟨dr :: l, ?_, fun r => (hmem' r).symm⟩, fun q q' r hr hr' => ?_⟩
    · rw [h.next_eq, h.free]
      exact ⟨rfl, hhead ▸ hl⟩
    · have hback : ∀ q, r ∈ s'.owned q → r ∈ s.owned q := by
        intro q hr
        by_cases hq : q = p
        · rw [hq, h.owner] at hr
          exact absurd hr (Option.not_mem_none r)
        · rwa [h.others q hq] at hr
      exact hs.distinct q q' r (hback q hr) (hback q' hr')

/-! ### One event -/

/-- What an event does to the free list and to what the processes have, when it finds the head, and
which operation it completes. -/
inductive RequestMove (e : RequestEvent) (s s' : RequestPool) : Prop
  | keep (next_eq : s'.next = s.next) (free : s'.freeDiskRequests = s.freeDiskRequests)
      (owned : s'.owned = s.owned) (finds : FindsHead s e) (writes : s.headWrites e = [])
  /-- The link of a request is written that a process has. -/
  | relink {p : PcbId} {dr : RequestId} {next : Option RequestId} (owner : s.owned p = some dr)
      (next_eq : s'.next = Function.update s.next dr next)
      (free : s'.freeDiskRequests = s.freeDiskRequests) (owned : s'.owned = s.owned)
      (finds : FindsHead s e) (writes : s.headWrites e = [])
  | pop {p : PcbId} {dr : RequestId} {next : Option RequestId} (pops : Pops p dr next s s')
      (finds : FindsHead s e ↔ s.freeDiskRequests = some dr ∧ s.next dr = next)
      (writes : s.headWrites e = [.take p])
  | push {p : PcbId} {dr : RequestId} (pushes : Pushes p dr s s')
      (finds : FindsHead s e ↔ s.freeDiskRequests = s.next dr)
      (writes : s.headWrites e = [.give p])

lemma access_move (s : RequestPool) (p : PcbId) : RequestMove (.run p) s (s.access p) := by
  have hfinds {point : RequestPoint} (hpoint : s.points p = point) :
      FindsHead s (.run p) ↔ point.FindsHead s := by
    rw [FindsHead, hpoint]
  -- a process that goes on with what it has
  have hkeep (s' : RequestPool) (point' : RequestPoint) {point} (hpoint : s.points p = point)
      (hnext : s'.next = s.next) (hfree : s'.freeDiskRequests = s.freeDiskRequests)
      (hpoints : s'.points = Function.update s.points p point')
      (hsame : point'.owned = point.owned) (htrue : point.FindsHead s)
      (hwrites : s.headWrites (.run p) = []) : RequestMove (.run p) s s' :=
    .keep hnext hfree (owned_congr point' hpoints (hsame.trans (RequestPool.owned_of hpoint).symm))
      ((hfinds hpoint).mpr htrue) hwrites
  have hwrites {point : RequestPoint} (hpoint : s.points p = point) :
      s.headWrites (.run p) = point.headWrites p := by
    rw [RequestPool.headWrites, hpoint]
  rw [RequestPool.access]
  cases hpoint : s.points p with
  | outside => exact .keep rfl rfl rfl ((hfinds hpoint).mpr trivial) (hwrites hpoint)
  | holds dr => exact .keep rfl rfl rfl ((hfinds hpoint).mpr trivial) (hwrites hpoint)
  | readFree =>
      dsimp only
      split
      · exact hkeep _ (.readNext _) hpoint rfl rfl rfl rfl trivial (hwrites hpoint)
      · exact hkeep _ .outside hpoint rfl rfl rfl rfl trivial (hwrites hpoint)
  | readNext dr =>
      exact hkeep _ (.pop dr (s.next dr)) hpoint rfl rfl rfl rfl trivial (hwrites hpoint)
  | readHead dr =>
      exact hkeep _ (.link dr s.freeDiskRequests) hpoint rfl rfl rfl rfl trivial (hwrites hpoint)
  | clear dr fields =>
      cases fields with
      | nil =>
          exact .relink (RequestPool.owned_of hpoint) rfl rfl
            (owned_congr (.holds dr) rfl (RequestPool.owned_of hpoint).symm)
            ((hfinds hpoint).mpr trivial) (hwrites hpoint)
      | cons field fields =>
          exact hkeep _ (.clear dr fields) hpoint rfl rfl rfl rfl trivial (hwrites hpoint)
  | link dr head =>
      exact .relink (RequestPool.owned_of hpoint) rfl rfl
        (owned_congr (.push dr) rfl (RequestPool.owned_of hpoint).symm)
        ((hfinds hpoint).mpr trivial) (hwrites hpoint)
  | pop dr next =>
      exact .pop ⟨RequestPool.owned_of hpoint, rfl, rfl,
        owned_self (s := s) (.clear dr requestFields) rfl,
        fun q => owned_other (s := s) (.clear dr requestFields) rfl⟩ (hfinds hpoint)
        (hwrites hpoint)
  | push dr =>
      exact .push ⟨RequestPool.owned_of hpoint, rfl, rfl, owned_self (s := s) .outside rfl,
        fun q => owned_other (s := s) .outside rfl⟩ (hfinds hpoint) (hwrites hpoint)

/-- **Every event does one of these.** -/
lemma after_move (hallowed : RequestAllowed s e) : RequestMove e s (s.after e) := by
  cases e with
  | alloc p =>
      have hpoint : s.points p = .outside := hallowed
      exact .keep rfl rfl (owned_congr .readFree rfl (RequestPool.owned_of hpoint).symm) trivial rfl
  | write p dr r => exact .keep rfl rfl rfl trivial rfl
  | dealloc p dr =>
      have hpoint : s.points p = .holds dr := hallowed
      exact .keep rfl rfl (owned_congr (.readHead dr) rfl (RequestPool.owned_of hpoint).symm)
        trivial rfl
  | run p => exact access_move s p

/-- **An event keeps the pool exactly if it finds the head.** -/
lemma RequestsPooled.step_iff (hs : RequestsPooled s) (hallowed : RequestAllowed s e) :
    RequestsPooled (s.after e) ↔ FindsHead s e := by
  cases after_move hallowed with
  | keep hnext hfree howned hfinds _ => exact iff_of_true (hs.keep hnext hfree howned) hfinds
  | relink howner hnext hfree howned hfinds _ =>
      exact iff_of_true (hs.relink howner hnext hfree howned) hfinds
  | pop hpops hfinds _ =>
      rw [hfinds]
      exact ⟨hs.of_pop hpops, fun h => hs.pop hpops h.1 h.2⟩
  | push hpushes hfinds _ =>
      rw [hfinds]
      exact hs.push_iff hpushes

/-- After `_disk_init` all requests are in the free list, the last one first. -/
lemma diskInitRequests_spec :
    Chain diskInitRequests.next diskInitRequests.freeDiskRequests (List.finRange 256).reverse
      ∧ ∀ p, diskInitRequests.owned p = none := by
  have hchain := Chain.push_all RequestPool.next RequestPool.freeDiskRequests
    (fun s dr => diskDeallocRequest dr s) (fun _ _ => ⟨rfl, rfl⟩) (List.finRange 256)
    (s := ⟨fun _ => .zero, fun _ => none, none, fun _ => .outside⟩) (l := []) rfl
    (by simpa using List.nodup_finRange 256)
  rw [List.append_nil] at hchain
  refine ⟨hchain, fun p => ?_⟩
  have hpoints : diskInitRequests.points = fun _ => .outside :=
    List.foldlRecOn (motive := fun s : RequestPool => s.points = fun _ => .outside) _ _ rfl
      fun s hs dr _ => hs
  rw [RequestPool.owned, hpoints]
  rfl

lemma requestsPooled_init : RequestsPooled diskInitRequests := by
  obtain ⟨hchain, hnone⟩ := diskInitRequests_spec
  refine ⟨⟨_, hchain, fun r => iff_of_true ?_ fun p => ?_⟩, fun p q r hr => ?_⟩
  · rw [List.mem_reverse]
    exact List.mem_finRange r
  · rw [hnone p]
    exact Option.not_mem_none r
  · rw [hnone p] at hr
    exact absurd hr (Option.not_mem_none r)

end Access

/-! ### Runs -/

/-- **The pool under preemption**: it is kept throughout a run exactly if every write of
`_free_disk_requests` finds the list as it was read, whatever the order of the accesses. -/
theorem requests_pooled_iff {es : List RequestEvent} {s : RequestPool}
    (h : Transition.Run requestPoolStep RequestAllowed diskInitRequests es s) :
    Throughout requestPoolStep RequestAllowed RequestsPooled diskInitRequests es ↔
      ∀ t ∈ trace requestPoolStep diskInitRequests es, FindsHead t.before t.event :=
  h.always_iff requestsPooled_init fun s e s' hs hallowed hstep => by
    obtain rfl := Except.ok.inj hstep
    exact hs.step_iff hallowed

/-- Two processes take a request in turn, and the first one gives its request back. -/
def requestsTaken : List RequestEvent :=
  let alloc (p : PcbId) : List RequestEvent := .alloc p :: List.replicate 9 (.run p)
  alloc 0 ++ alloc 1 ++ .dealloc 0 firstRequest :: List.replicate 3 (.run 0)

theorem requests_pooled_iff_taken :
    Throughout requestPoolStep RequestAllowed RequestsPooled diskInitRequests requestsTaken := by
  obtain ⟨s, hrun, -⟩ := exists_run requestPoolStep RequestAllowed diskInitRequests requestsTaken
    (f := fun _ => ()) (b := ()) (by decide +kernel)
  exact (requests_pooled_iff hrun).mpr (by decide +kernel)

/-- A process is preempted between the read and the write of the head: two have one request. -/
theorem request_shared :
    ¬ ∀ es s, Transition.Run requestPoolStep RequestAllowed diskInitRequests es s →
      RequestsPooled s := by
  intro hall
  obtain ⟨s, hs, howned⟩ := exists_run requestPoolStep RequestAllowed diskInitRequests
    [.alloc 0, .run 0, .alloc 1, .run 1, .run 1, .run 1, .run 0, .run 0]
    (f := fun s => (s.owned 0, s.owned 1)) (b := (some firstRequest, some firstRequest))
    (by decide +kernel)
  obtain ⟨h₀, h₁⟩ := Prod.mk.inj howned
  exact absurd ((hall _ s hs).distinct 0 1 firstRequest h₀ h₁) (by decide)

/-! ### The pool as a stack -/

section Stack

variable {s s' : RequestPool} {p : PcbId} {dr r : RequestId} {next : Option RequestId}
  {e : RequestEvent} {free : List RequestId} {owned : PcbId → Option RequestId} {a : RequestStack}

lemma stackStep_take (hp : owned p = none) :
    Transition.Run stackStep StackAllowed ⟨r :: free, owned⟩ [.take p]
      ⟨free, Function.update owned p (some r)⟩ :=
  .cons (show StackAllowed ⟨r :: free, owned⟩ (.take p) from ⟨hp, List.cons_ne_nil r free⟩) rfl
    (.nil _)

lemma stackStep_give (hp : owned p = some r) :
    Transition.Run stackStep StackAllowed ⟨free, owned⟩ [.give p]
      ⟨r :: free, Function.update owned p none⟩ := by
  have hstep : stackStep ⟨free, owned⟩ (.give p)
      = .ok ⟨r :: free, Function.update owned p none⟩ := by
    simp only [stackStep, RequestStack.after, hp]
  exact .cons (show StackAllowed ⟨free, owned⟩ (.give p) from ⟨r, hp⟩) hstep (.nil _)

/-- The free list and what the processes have are the stack. -/
structure RequestPool.Shows (s : RequestPool) (a : RequestStack) : Prop where
  chain : Chain s.next s.freeDiskRequests a.free
  owned : a.owned = s.owned

lemma Pops.owned_eq (h : Pops p dr next s s') :
    s'.owned = Function.update s.owned p (some dr) :=
  Function.eq_update_iff.mpr ⟨h.owner, h.others⟩

lemma Pushes.owned_eq (h : Pushes p dr s s') : s'.owned = Function.update s.owned p none :=
  Function.eq_update_iff.mpr ⟨h.owner, h.others⟩

/-- **An event that finds the head** is the operation on the stack that it completes, or none. -/
lemma RequestPool.Shows.step (h : s.Shows a) (hs : RequestsPooled s)
    (hallowed : RequestAllowed s e) (hfinds : FindsHead s e) :
    ∃ a', Transition.Run stackStep StackAllowed a (s.headWrites e) a' ∧ (s.after e).Shows a' := by
  obtain ⟨free, owned⟩ := a
  obtain ⟨hchain, rfl⟩ := h
  cases after_move hallowed with
  | keep hnext hfree howned _ hwrites =>
      refine ⟨_, ?_, by rwa [hnext, hfree], howned.symm⟩
      rw [hwrites]
      exact .nil _
  | @relink p dr next howner hnext hfree howned _ hwrites =>
      obtain ⟨l, hl, hmem⟩ := hs.free_list
      obtain rfl := hl.unique hchain
      have hnot : dr ∉ l := fun hin => (hmem dr).mp hin p howner
      refine ⟨_, ?_, by rw [hnext, hfree]; exact hchain.update hnot, howned.symm⟩
      rw [hwrites]
      exact .nil _
  | @pop p dr next hpops hiff hwrites =>
      obtain ⟨hhead, hnext⟩ := hiff.mp hfinds
      rw [hhead] at hchain
      obtain ⟨rest, rfl, hrest⟩ := chain_some.mp hchain
      refine ⟨_, hwrites ▸ stackStep_take hpops.before, ?_, hpops.owned_eq.symm⟩
      rw [hpops.next_eq, hpops.free, ← hnext]
      exact hrest
  | @push p dr hpushes hiff hwrites =>
      refine ⟨_, hwrites ▸ stackStep_give hpushes.before, ?_, hpushes.owned_eq.symm⟩
      rw [hpushes.next_eq, hpushes.free]
      exact ⟨rfl, hiff.mp hfinds ▸ hchain⟩

/-- **A request record is written by the process that has it**, and by no other. -/
lemma after_record (hallowed : RequestAllowed s e) (hdr : s.owned e.process ≠ some dr) :
    (s.after e).requests dr = s.requests dr ∧ (s.after e).next dr = s.next dr := by
  cases e with
  | alloc p => exact ⟨rfl, rfl⟩
  | dealloc p dr' => exact ⟨rfl, rfl⟩
  | write p dr' r =>
      have hpoint : s.points p = .holds dr' := hallowed
      have howned : s.owned p = some dr' := RequestPool.owned_of hpoint
      have hne : dr ≠ dr' := fun heq => hdr (heq ▸ howned)
      exact ⟨Function.update_of_ne hne _ _, rfl⟩
  | run p =>
      have hne {dr' : RequestId} (howned : (s.points p).owned = some dr') : dr ≠ dr' :=
        fun heq => hdr (heq ▸ howned)
      rw [RequestPool.after, RequestPool.access]
      cases hpoint : s.points p with
      | outside | holds _ | readNext _ | pop _ _ | readHead _ | push _ => exact ⟨rfl, rfl⟩
      | readFree =>
          dsimp only
          split <;> exact ⟨rfl, rfl⟩
      | clear dr' fields =>
          have hother : dr ≠ dr' := hne (by rw [hpoint]; rfl)
          cases fields with
          | nil => exact ⟨rfl, Function.update_of_ne hother _ _⟩
          | cons field fields => exact ⟨Function.update_of_ne hother _ _, rfl⟩
      | link dr' head =>
          exact ⟨rfl, Function.update_of_ne (hne (by rw [hpoint]; rfl)) _ _⟩

lemma after_points (hp : e.process ≠ p) : (s.after e).points p = s.points p := by
  cases e with
  | alloc q => exact Function.update_of_ne hp.symm _ _
  | dealloc q dr => exact Function.update_of_ne hp.symm _ _
  | write q dr r => rfl
  | run q =>
      have hother (point : RequestPoint) : Function.update s.points q point p = s.points p :=
        Function.update_of_ne hp.symm _ _
      rw [RequestPool.after, RequestPool.access]
      split
      · rfl
      · rfl
      · split <;> exact hother _
      all_goals exact hother _

/-- There are more requests than processes, and each process has one at most. -/
lemma RequestsPooled.free_ne_nil (hs : RequestsPooled s)
    (hchain : Chain s.next s.freeDiskRequests free) : free ≠ [] := by
  rintro rfl
  obtain ⟨l, hl, hmem⟩ := hs.free_list
  obtain rfl := hl.unique hchain
  have howner : ∀ r, ∃ p, s.owned p = some r := fun r => by
    have hr := (hmem r).not.mp List.not_mem_nil
    obtain ⟨p, hp⟩ := not_forall.mp hr
    exact ⟨p, not_not.mp hp⟩
  choose owner howner using howner
  have hinj : Function.Injective owner := fun r r' heq =>
    Option.some.inj ((howner r).symm.trans (heq ▸ howner r'))
  have hcard := Fintype.card_le_of_injective owner hinj
  rw [Fintype.card_fin, Fintype.card_fin] at hcard
  exact absurd hcard (by decide)

end Stack

/-- **The pool is a stack** in the runs whose writes find the head: the requests are handed out and
taken back one after the other, in the order of the writes of the head, there is always a free one,
and what a process has is its own. -/
theorem requests_linearized {es : List RequestEvent} {s : RequestPool}
    (h : Transition.Run requestPoolStep (fun s e => RequestAllowed s e ∧ FindsHead s e)
      diskInitRequests es s) :
    (∃ free, free ≠ [] ∧ Chain s.next s.freeDiskRequests free
        ∧ Transition.Run stackStep StackAllowed .full
          (gather requestPoolStep RequestPool.headWrites diskInitRequests es) ⟨free, s.owned⟩)
      ∧ ∀ e p dr, RequestAllowed s e → e.process ≠ p → s.owned p = some dr →
        (s.after e).requests dr = s.requests dr ∧ (s.after e).points p = s.points p := by
  obtain ⟨hchain, hnone⟩ := diskInitRequests_spec
  have hstart : diskInitRequests.Shows .full := by
    rw [RequestStack.full]
    generalize (List.finRange 256).reverse = l at hchain ⊢
    exact ⟨hchain, funext fun p => (hnone p).symm⟩
  obtain ⟨⟨free, owned⟩, hrun, hpooled, hshows⟩ := h.simulates
    (fun s a => RequestsPooled s ∧ s.Shows a) ⟨requestsPooled_init, hstart⟩
    fun s e s' a ⟨hs, ha⟩ ⟨hallowed, hfinds⟩ hstep => by
      obtain rfl := Except.ok.inj hstep
      obtain ⟨a', hrun, ha'⟩ := ha.step hs hallowed hfinds
      exact ⟨a', hrun, (hs.step_iff hallowed).mpr hfinds, ha'⟩
  obtain ⟨hfree, rfl⟩ := hshows
  refine ⟨⟨free, hpooled.free_ne_nil hfree, hfree, hrun⟩, fun e p dr hallowed hp howned => ?_⟩
  have hother : s.owned e.process ≠ some dr := fun heq =>
    hp (hpooled.distinct e.process p dr heq howned)
  exact ⟨(after_record hallowed hother).1, after_points hp⟩

/-- The operations are the two takes and the give of this run. -/
theorem requests_linearized_taken : ∃ s,
    Transition.Run requestPoolStep (fun s e => RequestAllowed s e ∧ FindsHead s e) diskInitRequests
        requestsTaken s
      ∧ (∃ free, free ≠ [] ∧ Chain s.next s.freeDiskRequests free
        ∧ Transition.Run stackStep StackAllowed .full [.take 0, .take 1, .give 0] ⟨free, s.owned⟩)
      ∧ ∀ e p dr, RequestAllowed s e → e.process ≠ p → s.owned p = some dr →
        (s.after e).requests dr = s.requests dr ∧ (s.after e).points p = s.points p := by
  obtain ⟨s, hrun, -⟩ := exists_run requestPoolStep (fun s e => RequestAllowed s e ∧ FindsHead s e)
    diskInitRequests requestsTaken (f := fun _ => ()) (b := ()) (by decide +kernel)
  have hops : gather requestPoolStep RequestPool.headWrites diskInitRequests requestsTaken
      = [.take 0, .take 1, .give 0] := by decide +kernel
  exact ⟨s, hrun, hops ▸ requests_linearized hrun⟩

/-! ### The driver -/

/-- What operations make of the full stack. -/
def RequestStack.Reached (s : RequestStack) : Prop :=
  ∃ ops, Transition.Run stackStep StackAllowed .full ops s

/-- The free list of the driver and what its processes have. -/
def AtaState.stack (s : AtaState) : RequestStack :=
  ⟨s.freeRequests, fun p => (s.calls p).map AtaCall.request⟩

section Driver

variable {s s' : AtaState} {p : PcbId} {c : AtaCall} {e : AtaEvent} {o : Option AtaCall}

lemma RequestStack.Reached.take {r : RequestId} {free : List RequestId}
    {owned : PcbId → Option RequestId} (h : Reached ⟨r :: free, owned⟩) (hp : owned p = none) :
    Reached ⟨free, Function.update owned p (some r)⟩ := by
  obtain ⟨ops, hrun⟩ := h
  exact ⟨ops ++ [.take p], hrun.append (stackStep_take hp)⟩

lemma RequestStack.Reached.give {r : RequestId} {free : List RequestId}
    {owned : PcbId → Option RequestId} (h : Reached ⟨free, owned⟩) (hp : owned p = some r) :
    Reached ⟨r :: free, Function.update owned p none⟩ := by
  obtain ⟨ops, hrun⟩ := h
  exact ⟨ops ++ [.give p], hrun.append (stackStep_give hp)⟩

lemma stack_owned (hcalls : s.calls p = o) : s.stack.owned p = o.map AtaCall.request := by
  subst hcalls
  rfl

/-- One process has another call. -/
lemma stack_eq (hcalls : s'.calls = Function.update s.calls p o) :
    s'.stack = ⟨s'.freeRequests, Function.update s.stack.owned p (o.map AtaCall.request)⟩ := by
  have howned : (fun q => (s'.calls q).map AtaCall.request)
      = Function.update s.stack.owned p (o.map AtaCall.request) := by
    refine Function.eq_update_iff.mpr ⟨?_, fun q hq => ?_⟩
    · rw [hcalls, Function.update_self]
    · rw [hcalls, Function.update_of_ne hq]
      rfl
  rw [AtaState.stack, howned]

/-- A process goes on with its request. -/
lemma stack_goto {c' : AtaCall} (hc : s.calls p = some c)
    (hcalls : s'.calls = Function.update s.calls p (some c')) (hr : c'.request = c.request)
    (hfree : s'.freeRequests = s.freeRequests) : s'.stack = s.stack := by
  have hsame : (some c').map AtaCall.request = s.stack.owned p := by
    rw [stack_owned hc]
    exact congrArg some hr
  rw [stack_eq hcalls, hsame, Function.update_eq_self, hfree]
  rfl

/-- **A step of the driver** is an operation on the stack, or none. -/
lemma stack_step (h : s.stack.Reached) (hstep : ataStep s e = .ok s') : s'.stack.Reached := by
  cases e with
  | start p job =>
      rcases ataStep_start hstep with rfl | ⟨r, rest, hc, hfree, rfl⟩
      · exact h
      · rw [stack_eq (s := s) rfl]
        rw [AtaState.stack, hfree] at h
        exact h.take (stack_owned hc)
  | run p node =>
      obtain ⟨c, hc, hrun⟩ := ataStep_run hstep
      cases runStep_move hc hrun with
      | dealloc _ hcalls hfree _ =>
          rw [stack_eq hcalls, hfree]
          exact RequestStack.Reached.give h (stack_owned hc)
      | call _ hcalls hfree _ => rwa [stack_goto hc hcalls rfl hfree]
      | enqueue _ _ _ hcalls hfree _ => rwa [stack_goto hc hcalls rfl hfree]
      | refuse _ _ _ hcalls hfree _ => rwa [stack_goto hc hcalls rfl hfree]
      | inside _ _ hcalls hfree _ => rwa [stack_goto hc hcalls rfl hfree]
      | finish _ hcalls hfree _ => rwa [stack_goto hc hcalls rfl hfree]
  | interrupt =>
      obtain ⟨hcalls, hfree, -⟩ := ataIsr_frame hstep
      rwa [AtaState.stack, hcalls, hfree]
  | settle =>
      obtain rfl := Except.ok.inj hstep
      exact h

end Driver

/-- **The driver uses the same stack**: its free list and what its processes have come from it by
the same operations. -/
theorem ata_stack {s₀ s : AtaState} {es : List AtaEvent} (h₀ : AtaInitial s₀)
    (hfree : s₀.freeRequests = RequestStack.full.free)
    (h : Transition.Run ataStep (fun _ _ => True) s₀ es s) : s.stack.Reached := by
  have hstart : s₀.stack.Reached := by
    have hnone : s₀.stack.owned = RequestStack.full.owned :=
      funext fun p => stack_owned (h₀.calls p)
    have hfull : s₀.stack = .full := RequestStack.ext hfree hnone
    rw [hfull]
    exact ⟨[], .nil _⟩
  exact h.invariant hstart fun s e s' hs _ hstep => stack_step hs hstep

end Sp2
