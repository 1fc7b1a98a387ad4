import Mathlib.Logic.Function.Basic
import EnergyChain.Lib.Run

/-!
# Redelivery

A consumer takes the messages of a partitioned log, each partition in order, into a queue and works on
the message at the head of the queue. The work may mark the offset of its message. A restart loses the
queue and a rebalance keeps it; after both, a partition is delivered from behind its highest marked
offset on, or from the end of its log if no offset is marked. A message that was worked on and not
marked is then delivered again, unless a later message of its partition is marked.

The worker answers some of the messages it works on. As long as a restart or a rebalance comes only
when what has been answered lies below the offset at which delivery resumes (`Resumes`), no message is
worked on after it has been answered (`run_unanswered`). Messages whose values are not `relevant` are
left out of both.
-/

set_option autoImplicit false

namespace EnergyChain.Redelivery

universe u v w x

variable {α : Type u} {W : Type v} {E : Type w} {A : Type x}

/-- A message of the log with its place. -/
structure Message (α : Type u) where
  partition : Nat
  offset : Nat
  value : α

/-- The partition and the offset, which say which message it is. -/
def Message.place (m : Message α) : Nat × Nat := (m.partition, m.offset)

/-- A partition of the log, the offset that is delivered next, and the highest marked offset. -/
structure Partition (α : Type u) where
  log : List α
  position : Nat
  marked : Option Nat

/-- The offset at which delivery resumes. -/
def Partition.resume (p : Partition α) : Nat :=
  match p.marked with
  | some offset => offset + 1
  | none => p.log.length

/-- Mark an offset; a higher mark stays. -/
def Partition.mark (offset : Nat) (p : Partition α) : Partition α :=
  match p.marked with
  | some highest => { p with marked := some (max highest offset) }
  | none => { p with marked := some offset }

structure Consumer (α : Type u) (W : Type v) where
  partitions : Nat → Partition α
  queue : List (Message α)
  worker : W

/-- What the worker does with a message, and whether it marks it; what else changes its state; and what
a restart leaves of its state. -/
structure Handler (α : Type u) (W : Type v) (E : Type w) (A : Type x) where
  work : E → Message α → W → W × Bool
  aside : A → W → W
  restart : W → W

inductive Event (α : Type u) (E : Type w) (A : Type x) where
  | produce (partition : Nat) (value : α)
  | deliver (partition : Nat)
  | work (outcome : E)
  | aside (change : A)
  | restart
  | rebalance

/-- Change one partition. -/
def Consumer.onPartition (c : Consumer α W) (i : Nat) (f : Partition α → Partition α) :
    Consumer α W :=
  { c with partitions := Function.update c.partitions i (f (c.partitions i)) }

/-- Deliver every partition from where it resumes. -/
def Consumer.resumed (c : Consumer α W) : Consumer α W :=
  { c with partitions := fun i => { c.partitions i with position := (c.partitions i).resume } }

/-- One step of the consumer. A delivery waits for the next message, and work for a queued one. -/
def step (h : Handler α W E A) (c : Consumer α W) : Event α E A → Consumer α W
  | .produce i value => c.onPartition i fun p => { p with log := p.log ++ [value] }
  | .deliver i =>
      match (c.partitions i).log[(c.partitions i).position]? with
      | none => c
      | some value =>
          { c.onPartition i fun p => { p with position := p.position + 1 } with
            queue := c.queue ++ [⟨i, (c.partitions i).position, value⟩] }
  | .work outcome =>
      match c.queue with
      | [] => c
      | m :: rest =>
          -- the handler decides whether the offset is marked
          let (worker, marks) := h.work outcome m c.worker
          { if marks then c.onPartition m.partition (.mark m.offset) else c with
            queue := rest, worker := worker }
  | .aside change => { c with worker := h.aside change c.worker }
  | .restart => { c.resumed with queue := [], worker := h.restart c.worker }
  -- the queue lives through a rebalance, so its messages can be delivered again
  | .rebalance => c.resumed

/-- The message that the step works on. -/
def working (c : Consumer α W) : Event α E A → Option (Message α)
  | .work _ => c.queue.head?
  | _ => none

/-- `answered` lists the messages that the worker has answered: work on a message answers no other
one, and nothing else answers a message. -/
structure Handler.Answers (h : Handler α W E A) (answered : W → List (Message α)) : Prop where
  work : ∀ outcome m worker, ∀ m' ∈ answered (h.work outcome m worker).1,
    m' ∈ answered worker ∨ m' = m
  aside : ∀ change worker, answered (h.aside change worker) = answered worker
  restart : ∀ worker, answered (h.restart worker) = answered worker

/-- The message stands in the log at its place. -/
def Stored (c : Consumer α W) (m : Message α) : Prop :=
  (c.partitions m.partition).log[m.offset]? = some m.value

section

variable (relevant : α → Bool) (answered : W → List (Message α))

/-- Delivery resumes behind the relevant messages that have been answered and, if the queue is kept,
behind those that are queued. -/
def Resumes (c : Consumer α W) : Event α E A → Prop
  | .restart => ∀ m ∈ answered c.worker, relevant m.value = true →
      m.offset < (c.partitions m.partition).resume
  | .rebalance => ∀ m ∈ c.queue ++ answered c.worker, relevant m.value = true →
      m.offset < (c.partitions m.partition).resume
  | _ => True

instance (c : Consumer α W) (e : Event α E A) : Decidable (Resumes relevant answered c e) :=
  match e with
  | .restart => inferInstanceAs (Decidable (∀ m ∈ answered c.worker, relevant m.value = true →
      m.offset < (c.partitions m.partition).resume))
  | .rebalance => inferInstanceAs (Decidable (∀ m ∈ c.queue ++ answered c.worker,
      relevant m.value = true → m.offset < (c.partitions m.partition).resume))
  | .produce _ _ | .deliver _ | .work _ | .aside _ => inferInstanceAs (Decidable True)

/-- No queued message has been answered, and none is queued twice; what is queued or answered lies
below the next delivery. -/
structure Fresh (c : Consumer α W) : Prop where
  stored : ∀ m ∈ c.queue ++ answered c.worker, Stored c m
  taken : ∀ m ∈ c.queue ++ answered c.worker, relevant m.value = true →
    m.offset < (c.partitions m.partition).position
  distinct : c.queue.Pairwise fun m m' => relevant m'.value = true → m.place ≠ m'.place
  unanswered : ∀ m ∈ c.queue, relevant m.value = true →
    ∀ m' ∈ answered c.worker, m'.place ≠ m.place

variable {relevant answered} {h : Handler α W E A} {c c' : Consumer α W}

/-- What a change of one partition keeps, and no change keeps too, holds of every partition. -/
theorem onPartition_rel {R : Partition α → Partition α → Prop} {i : Nat}
    {f : Partition α → Partition α} (hrefl : ∀ p, R p p) (hf : ∀ p, R p (f p)) (j : Nat) :
    R (c.partitions j) ((c.onPartition i f).partitions j) := by
  change R (c.partitions j) (Function.update c.partitions i (f (c.partitions i)) j)
  rcases eq_or_ne j i with rfl | hne
  · rw [Function.update_self]
    exact hf _
  · rw [Function.update_of_ne hne]
    exact hrefl _

/-- Two stored messages at one place have one value. -/
theorem Stored.value_eq {m m' : Message α} (hm : Stored c m) (hm' : Stored c m')
    (hplace : m.place = m'.place) : m.value = m'.value := by
  obtain ⟨hpartition, hoffset⟩ := Prod.mk.inj hplace
  rw [Stored, hpartition, hoffset] at hm
  exact Option.some.inj (hm.symm.trans hm')

/-- Longer logs and other marks leave the invariant alone. -/
theorem Fresh.of_extends (hc : Fresh relevant answered c)
    (hlog : ∀ i, (c.partitions i).log <+: (c'.partitions i).log)
    (hposition : ∀ i, (c'.partitions i).position = (c.partitions i).position)
    (hqueue : c'.queue = c.queue) (hworker : c'.worker = c.worker) : Fresh relevant answered c' := by
  obtain ⟨hstored, htaken, hdistinct, hunanswered⟩ := hc
  rw [← hqueue, ← hworker] at hstored htaken hunanswered
  constructor
  · intro m hm
    obtain ⟨tail, htail⟩ := hlog m.partition
    have hget := hstored m hm
    rw [Stored] at hget ⊢
    rw [← htail, List.getElem?_append_left (List.getElem?_eq_some_iff.1 hget).1]
    exact hget
  · intro m hm hrelevant
    rw [hposition]
    exact htaken m hm hrelevant
  · rw [hqueue]
    exact hdistinct
  · exact hunanswered

theorem Fresh.produce (hc : Fresh relevant answered c) (i : Nat) (value : α) :
    Fresh relevant answered (c.onPartition i fun p => { p with log := p.log ++ [value] }) := by
  refine hc.of_extends ?_ ?_ rfl rfl
  · exact onPartition_rel (R := fun p p' => p.log <+: p'.log) (fun p => List.prefix_refl p.log)
      fun p => List.prefix_append p.log [value]
  · exact onPartition_rel (R := fun p p' => p'.position = p.position) (fun _ => rfl) fun _ => rfl

theorem Fresh.mark (hc : Fresh relevant answered c) (i offset : Nat) :
    Fresh relevant answered (c.onPartition i (.mark offset)) := by
  -- a mark moves neither the log nor the next delivery, whether it is taken or not
  have hmark : ∀ p : Partition α, (p.mark offset).log = p.log ∧
      (p.mark offset).position = p.position := by
    intro p
    unfold Partition.mark
    split <;> exact ⟨rfl, rfl⟩
  refine hc.of_extends ?_ ?_ rfl rfl
  · exact onPartition_rel (R := fun p p' => p.log <+: p'.log) (fun p => List.prefix_refl p.log)
      fun p => (hmark p).1 ▸ List.prefix_refl p.log
  · exact onPartition_rel (R := fun p p' => p'.position = p.position) (fun _ => rfl)
      fun p => (hmark p).2

/-- The message that is delivered next is neither queued nor answered, if it is relevant. -/
theorem Fresh.place_ne_next (hc : Fresh relevant answered c) {i : Nat} {value : α}
    (hnext : (c.partitions i).log[(c.partitions i).position]? = some value)
    (hrelevant : relevant value = true) {m : Message α} (hm : m ∈ c.queue ++ answered c.worker) :
    m.place ≠ (i, (c.partitions i).position) := by
  intro hplace
  have hstored : Stored c ⟨i, (c.partitions i).position, value⟩ := hnext
  have hvalue : m.value = value := (hc.stored m hm).value_eq hstored hplace
  have htaken := hc.taken m hm (hvalue ▸ hrelevant)
  obtain ⟨hpartition, hoffset⟩ := Prod.mk.inj hplace
  rw [hpartition, hoffset] at htaken
  exact Nat.lt_irrefl _ htaken

theorem Fresh.deliver (hc : Fresh relevant answered c) {i : Nat} {value : α}
    (hnext : (c.partitions i).log[(c.partitions i).position]? = some value) :
    Fresh relevant answered
      { c.onPartition i fun p => { p with position := p.position + 1 } with
        queue := c.queue ++ [⟨i, (c.partitions i).position, value⟩] } := by
  have hmem : ∀ {m : Message α},
      m ∈ (c.queue ++ [⟨i, (c.partitions i).position, value⟩]) ++ answered c.worker →
        m ∈ c.queue ++ answered c.worker ∨ m = ⟨i, (c.partitions i).position, value⟩ := by
    intro m hm
    simp only [List.mem_append, List.mem_singleton] at hm ⊢
    tauto
  constructor
  · intro m hm
    have hlog := onPartition_rel (c := c) (R := fun p p' => p'.log = p.log) (i := i)
      (f := fun p => { p with position := p.position + 1 }) (fun _ => rfl) (fun _ => rfl) m.partition
    rw [Stored, hlog]
    rcases hmem hm with hm | rfl
    · exact hc.stored m hm
    · exact hnext
  · intro m hm hrelevant
    rcases hmem hm with hm | rfl
    -- the next delivery only moves on
    · have hposition := onPartition_rel (c := c) (R := fun p p' => p.position ≤ p'.position) (i := i)
        (f := fun p => { p with position := p.position + 1 }) (fun _ => Nat.le_refl _)
        (fun p => Nat.le_succ p.position) m.partition
      exact Nat.lt_of_lt_of_le (hc.taken m hm hrelevant) hposition
    · simp [Consumer.onPartition]
  · refine List.pairwise_append.2 ⟨hc.distinct, List.pairwise_singleton _ _, ?_⟩
    intro m hm m' hm' hrelevant
    rw [List.mem_singleton] at hm'
    subst hm'
    exact hc.place_ne_next hnext hrelevant (List.mem_append_left _ hm)
  · intro m hm hrelevant m' hm'
    rcases List.mem_append.1 hm with hm | hm
    · exact hc.unanswered m hm hrelevant m' hm'
    · rw [List.mem_singleton] at hm
      subst hm
      exact hc.place_ne_next hnext hrelevant (List.mem_append_right _ hm')

/-- Work on the head of the queue may answer it. -/
theorem Fresh.work (hc : Fresh relevant answered c) {m : Message α} {rest : List (Message α)}
    (hqueue : c.queue = m :: rest) {worker : W}
    (hanswered : ∀ m' ∈ answered worker, m' ∈ answered c.worker ∨ m' = m) :
    Fresh relevant answered { c with queue := rest, worker := worker } := by
  have hmem : ∀ m' ∈ rest ++ answered worker, m' ∈ c.queue ++ answered c.worker := by
    intro m' hm'
    rw [hqueue]
    rcases List.mem_append.1 hm' with hm' | hm'
    · simp [hm']
    · rcases hanswered m' hm' with hm' | rfl
      · simp [hm']
      · simp
  have hdistinct := hc.distinct
  rw [hqueue, List.pairwise_cons] at hdistinct
  constructor
  · intro m' hm'
    exact hc.stored m' (hmem m' hm')
  · intro m' hm'
    exact hc.taken m' (hmem m' hm')
  · exact hdistinct.2
  · intro m' hm' hrelevant m'' hm''
    -- the head may be answered now, but nothing behind it in the queue has its place
    rcases hanswered m'' hm'' with hm'' | rfl
    · refine hc.unanswered m' ?_ hrelevant m'' hm''
      rw [hqueue]
      exact List.mem_cons_of_mem _ hm'
    · exact hdistinct.1 m' hm' hrelevant

/-- What is kept lies behind the offsets at which delivery resumes. -/
theorem Fresh.resumed (hc : Fresh relevant answered c)
    (hresume : ∀ m ∈ c.queue ++ answered c.worker, relevant m.value = true →
      m.offset < (c.partitions m.partition).resume) : Fresh relevant answered c.resumed :=
  ⟨hc.stored, hresume, hc.distinct, hc.unanswered⟩

theorem Fresh.restart (hc : Fresh relevant answered c) {worker : W}
    (hworker : answered worker = answered c.worker)
    (hresume : ∀ m ∈ answered c.worker, relevant m.value = true →
      m.offset < (c.partitions m.partition).resume) :
    Fresh relevant answered { c.resumed with queue := [], worker := worker } := by
  constructor
  · intro m hm
    rw [List.nil_append, hworker] at hm
    exact hc.stored m (List.mem_append_right _ hm)
  · intro m hm
    rw [List.nil_append, hworker] at hm
    exact hresume m hm
  · exact List.Pairwise.nil
  · intro m hm
    cases hm

theorem step_fresh (hanswers : h.Answers answered) (e : Event α E A)
    (hc : Fresh relevant answered c) (hresumes : Resumes relevant answered c e) :
    Fresh relevant answered (step h c e) := by
  cases e with
  | produce i value => exact hc.produce i value
  | deliver i =>
      rw [step]
      split
      · exact hc
      · rename_i value hnext
        exact hc.deliver hnext
  | work outcome =>
      rw [step]
      split
      · exact hc
      · rename_i m rest hqueue
        have hanswered := hanswers.work outcome m c.worker
        generalize h.work outcome m c.worker = result at hanswered
        obtain ⟨worker, marks⟩ := result
        cases marks with
        | true => exact (hc.mark m.partition m.offset).work hqueue hanswered
        | false => exact hc.work hqueue hanswered
  | aside change =>
      obtain ⟨hstored, htaken, hdistinct, hunanswered⟩ := hc
      rw [← hanswers.aside change] at hstored htaken hunanswered
      exact ⟨hstored, htaken, hdistinct, hunanswered⟩
  | restart => exact hc.restart (hanswers.restart c.worker) hresumes
  | rebalance => exact hc.resumed hresumes

theorem run_fresh (hanswers : h.Answers answered) {es : List (Event α E A)}
    (hc : Fresh relevant answered c) (hes : Along (step h) (Resumes relevant answered) c es) :
    Fresh relevant answered (run (step h) c es) :=
  run_invariant (fun _ e hc hresumes => step_fresh hanswers e hc hresumes) hc hes

/-- A consumer with nothing queued and nothing answered. -/
theorem fresh_of_idle (hqueue : c.queue = []) (hanswered : answered c.worker = []) :
    Fresh relevant answered c := by
  constructor
  · intro m hm
    rw [hqueue, hanswered] at hm
    cases hm
  · intro m hm
    rw [hqueue, hanswered] at hm
    cases hm
  · rw [hqueue]
    exact List.Pairwise.nil
  · intro m hm
    rw [hqueue] at hm
    cases hm

/-- No relevant message is worked on after it has been answered. -/
theorem run_unanswered (hanswers : h.Answers answered) {es pre : List (Event α E A)} {e : Event α E A}
    (hc : Fresh relevant answered c) (hes : Along (step h) (Resumes relevant answered) c es)
    (hpre : pre ++ [e] <+: es) {m : Message α} (hm : working (run (step h) c pre) e = some m)
    (hrelevant : relevant m.value = true) :
    ∀ m' ∈ answered (run (step h) c pre).worker, m'.place ≠ m.place := by
  obtain ⟨rest, rfl⟩ := hpre
  rw [List.append_assoc] at hes
  have hfresh := run_fresh hanswers hc hes.of_append
  refine hfresh.unanswered m ?_ hrelevant
  -- only work has a message, the head of the queue
  cases e with
  | work outcome => exact List.mem_of_mem_head? hm
  | produce | deliver | aside | restart | rebalance => cases hm

end

end EnergyChain.Redelivery
