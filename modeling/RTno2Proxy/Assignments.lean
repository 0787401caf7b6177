import RTno2Proxy.EtherTcp

/-! src/hal/EtherTcp.cpp once more, one assignment or test at a time: `svc` is the producer, which
alone executes `buffer_push`, and the main thread the consumer. `buffer_end` is written by the one
and read by the other between any two of them. -/
namespace RTno2Proxy
namespace Assignments
open Interleaving (Steps Free stepsInvariant stepsAppend stepsFree)
open EtherTcp (bufsize Buffer bufferPush bufferPop getBufferSize)

inductive Producer where
  | outside
  | store (dat : UInt8)
  | increment
  | test
  | wrap
  deriving DecidableEq

/- What `get_buffer_size` or `buffer_pop` executes next. `left` is how many bytes may still be popped
before the size is asked for again; `before` is recorded when `get_buffer_size` is called. -/
inductive Consumer where
  | outside (left : Nat)
  | difference (before : Nat)
  | negative (before : Nat) (size : Int)
  | correct (before : Nat) (size : Int)
  | fetch (left : Nat)
  | increment (left : Nat)
  | test (left : Nat)
  | wrap (left : Nat)
  deriving DecidableEq

def Consumer.Outside : Consumer → Prop
  | outside _ => True
  | _ => False
instance (c : Consumer) : Decidable c.Outside := by cases c <;> (unfold Consumer.Outside; infer_instance)

structure Report where
  before : Nat
  size : Int
  after : Nat
  deriving DecidableEq

/- `buffer i` is what lies at `buffer[i]`, inside the array or not. The fields from `pushed` on are a
record of the run that nothing reads back. -/
structure Ring where
  buffer : Int → UInt8
  bufferStart : Int
  bufferEnd : Int
  producer : Producer
  consumer : Consumer
  pushed : Bytes
  stored : Nat
  completed : Nat
  popped : Bytes
  reports : List Report
  indexes : List Int

def Ring.unpopped (s : Ring) : Nat := s.stored - s.popped.length

inductive Event where
  | push (dat : UInt8)
  | getBufferSize
  | pop
  | producer
  | consumer
  deriving DecidableEq

def pushReturns (s : Ring) : Ring := {s with producer := .outside, completed := s.completed + 1}

def sizeReturns (before : Nat) (size : Int) (s : Ring) : Ring :=
  {s with reports := s.reports ++ [⟨before,size,s.unpopped⟩], consumer := .outside size.toNat}

def produce (s : Ring) : Option Ring :=
  match s.producer with
  | .outside => none
  | .store dat => some {s with buffer := Function.update s.buffer s.bufferEnd dat, indexes := s.indexes ++ [s.bufferEnd],
                               stored := s.stored + 1, producer := .increment}
  | .increment => some {s with bufferEnd := s.bufferEnd + 1, producer := .test}
  | .test => if s.bufferEnd ≥ bufsize then some {s with producer := .wrap} else some (pushReturns s)
  | .wrap => some (pushReturns {s with bufferEnd := 0})

def consume (s : Ring) : Option Ring :=
  match s.consumer with
  | .outside _ => none
  | .difference before => some {s with consumer := .negative before (s.bufferEnd - s.bufferStart)}
  | .negative before size =>
      if size < 0 then some {s with consumer := .correct before size} else some (sizeReturns before size s)
  | .correct before size => some (sizeReturns before (size + bufsize) s)
  | .fetch left => some {s with popped := s.popped ++ [s.buffer s.bufferStart], indexes := s.indexes ++ [s.bufferStart],
                                consumer := .increment left}
  | .increment left => some {s with bufferStart := s.bufferStart + 1, consumer := .test left}
  | .test left =>
      if s.bufferStart ≥ bufsize then some {s with consumer := .wrap left} else some {s with consumer := .outside left}
  | .wrap left => some {s with bufferStart := 0, consumer := .outside left}

def next (s : Ring) : Event → Option Ring
  | .push dat => if s.producer = .outside then some {s with pushed := s.pushed ++ [dat], producer := .store dat} else none
  | .getBufferSize =>
      match s.consumer with
      | .outside _ => some {s with consumer := .difference (s.completed - s.popped.length)}
      | _ => none
  | .pop =>
      match s.consumer with
      | .outside (left + 1) => some {s with consumer := .fetch left}
      | _ => none
  | .producer => produce s
  | .consumer => consume s

def init : Ring := ⟨fun _ => 0,0,0,.outside,.outside 0,[],0,0,[],[],[]⟩

def Roomy (s : Ring) (e : Event) : Prop := ∀ t, next s e = some t → t.unpopped ≤ 255

def Wrapped (s : Ring) (e : Event) : Prop := ∀ before, e = .consumer → s.consumer = .difference before →
  ¬ (s.bufferEnd = bufsize ∧ s.bufferStart = 0)

def RoomyWrapped (s : Ring) (e : Event) : Prop := Roomy s e ∧ Wrapped s e

structure Faithful (s : Ring) : Prop where
  popped : s.popped <+: s.pushed
  sizes : ∀ r ∈ s.reports, r.before ≤ r.size ∧ r.size ≤ r.after
  inside : ∀ i ∈ s.indexes, 0 ≤ i ∧ i ≤ 255

inductive ProducerSource (s : Ring) : Event → Ring → Prop where
  | push {dat : UInt8} (here : s.producer = .outside) :
      ProducerSource s (.push dat) {s with pushed := s.pushed ++ [dat], producer := .store dat}
  | store {dat : UInt8} (here : s.producer = .store dat) :
      ProducerSource s .producer {s with buffer := Function.update s.buffer s.bufferEnd dat,
                                         indexes := s.indexes ++ [s.bufferEnd], stored := s.stored + 1,
                                         producer := .increment}
  | increment (here : s.producer = .increment) :
      ProducerSource s .producer {s with bufferEnd := s.bufferEnd + 1, producer := .test}
  | behind (here : s.producer = .test) (past : s.bufferEnd ≥ bufsize) :
      ProducerSource s .producer {s with producer := .wrap}
  | ahead (here : s.producer = .test) (inside : ¬ s.bufferEnd ≥ bufsize) : ProducerSource s .producer (pushReturns s)
  | wrap (here : s.producer = .wrap) : ProducerSource s .producer (pushReturns {s with bufferEnd := 0})

inductive ConsumerSource (s : Ring) : Event → Ring → Prop where
  | getBufferSize {left : Nat} (here : s.consumer = .outside left) :
      ConsumerSource s .getBufferSize {s with consumer := .difference (s.completed - s.popped.length)}
  | pop {left : Nat} (here : s.consumer = .outside (left + 1)) : ConsumerSource s .pop {s with consumer := .fetch left}
  | difference {before : Nat} (here : s.consumer = .difference before) :
      ConsumerSource s .consumer {s with consumer := .negative before (s.bufferEnd - s.bufferStart)}
  | below {before : Nat} {size : Int} (here : s.consumer = .negative before size) (less : size < 0) :
      ConsumerSource s .consumer {s with consumer := .correct before size}
  | plain {before : Nat} {size : Int} (here : s.consumer = .negative before size) (more : ¬ size < 0) :
      ConsumerSource s .consumer (sizeReturns before size s)
  | correct {before : Nat} {size : Int} (here : s.consumer = .correct before size) :
      ConsumerSource s .consumer (sizeReturns before (size + bufsize) s)
  | fetch {left : Nat} (here : s.consumer = .fetch left) :
      ConsumerSource s .consumer {s with popped := s.popped ++ [s.buffer s.bufferStart],
                                         indexes := s.indexes ++ [s.bufferStart], consumer := .increment left}
  | increment {left : Nat} (here : s.consumer = .increment left) :
      ConsumerSource s .consumer {s with bufferStart := s.bufferStart + 1, consumer := .test left}
  | behind {left : Nat} (here : s.consumer = .test left) (past : s.bufferStart ≥ bufsize) :
      ConsumerSource s .consumer {s with consumer := .wrap left}
  | ahead {left : Nat} (here : s.consumer = .test left) (inside : ¬ s.bufferStart ≥ bufsize) :
      ConsumerSource s .consumer {s with consumer := .outside left}
  | wrap {left : Nat} (here : s.consumer = .wrap left) :
      ConsumerSource s .consumer {s with bufferStart := 0, consumer := .outside left}

theorem produceSource {s t : Ring} (taken : produce s = some t) : ProducerSource s .producer t := by
  unfold produce at taken
  split at taken
  · cases taken
  · rename_i dat here
    cases taken
    exact .store here
  · rename_i here
    cases taken
    exact .increment here
  · rename_i here
    split at taken
    · rename_i past
      cases taken
      exact .behind here past
    · rename_i inside
      cases taken
      exact .ahead here inside
  · rename_i here
    cases taken
    exact .wrap here

theorem consumeSource {s t : Ring} (taken : consume s = some t) : ConsumerSource s .consumer t := by
  unfold consume at taken
  split at taken
  · cases taken
  · rename_i before here
    cases taken
    exact .difference here
  · rename_i before size here
    split at taken
    · rename_i less
      cases taken
      exact .below here less
    · rename_i more
      cases taken
      exact .plain here more
  · rename_i before size here
    cases taken
    exact .correct here
  · rename_i left here
    cases taken
    exact .fetch here
  · rename_i left here
    cases taken
    exact .increment here
  · rename_i left here
    split at taken
    · rename_i past
      cases taken
      exact .behind here past
    · rename_i inside
      cases taken
      exact .ahead here inside
  · rename_i left here
    cases taken
    exact .wrap here

theorem nextSource {s t : Ring} {e : Event} (taken : next s e = some t) :
    ProducerSource s e t ∨ ConsumerSource s e t := by
  cases e with
  | push dat =>
    simp only [next] at taken
    split at taken
    · rename_i here
      cases taken
      exact .inl (.push here)
    · cases taken
  | getBufferSize =>
    simp only [next] at taken
    split at taken
    · rename_i left here
      cases taken
      exact .inr (.getBufferSize here)
    · cases taken
  | pop =>
    simp only [next] at taken
    split at taken
    · rename_i left here
      cases taken
      exact .inr (.pop here)
    · cases taken
  | producer => exact .inl (produceSource taken)
  | consumer => exact .inr (consumeSource taken)

def Ring.counted (s : Ring) : Nat :=
  match s.producer with
  | .test | .wrap => s.completed + 1
  | _ => s.completed

def Producing (pushed : Bytes) (stored completed : Nat) (bufferEnd : Int) : Producer → Prop
  | .outside => pushed.length = stored ∧ stored = completed ∧ bufferEnd = completed % 256
  | .store dat => pushed.length = stored + 1 ∧ pushed[stored]? = some dat ∧ stored = completed ∧ bufferEnd = completed % 256
  | .increment => pushed.length = stored ∧ stored = completed + 1 ∧ bufferEnd = completed % 256
  | .test => pushed.length = stored ∧ stored = completed + 1 ∧ bufferEnd = completed % 256 + 1
  | .wrap => pushed.length = stored ∧ stored = completed + 1 ∧ bufferEnd = 256 ∧ completed % 256 = 255

def Consuming (popped completed counted : Nat) (bufferStart : Int) : Consumer → Prop
  | .outside left => bufferStart = popped % 256 ∧ popped + left ≤ counted
  | .difference before => bufferStart = popped % 256 ∧ popped ≤ counted ∧ before ≤ completed - popped
  | .negative before size => bufferStart = popped % 256 ∧ ∃ n : Nat, before ≤ n ∧ popped + n ≤ counted ∧
      (size = n ∨ size < 0 ∧ size + 256 = n)
  | .correct before size => bufferStart = popped % 256 ∧ ∃ n : Nat, before ≤ n ∧ popped + n ≤ counted ∧ size + 256 = n
  | .fetch left => bufferStart = popped % 256 ∧ popped + left + 1 ≤ counted
  | .increment left => bufferStart = (popped - 1) % 256 ∧ 1 ≤ popped ∧ popped + left ≤ counted
  | .test left => bufferStart = (popped - 1) % 256 + 1 ∧ 1 ≤ popped ∧ popped + left ≤ counted
  | .wrap left => bufferStart = 256 ∧ (popped - 1) % 256 = 255 ∧ 1 ≤ popped ∧ popped + left ≤ counted

structure Invariant (s : Ring) : Prop where
  faithful : Faithful s
  producing : Producing s.pushed s.stored s.completed s.bufferEnd s.producer
  consuming : Consuming s.popped.length s.completed s.counted s.bufferStart s.consumer
  roomy : s.unpopped ≤ 255
  cells : ∀ k, s.popped.length ≤ k → k < s.stored → s.pushed[k]? = some (s.buffer (k % 256 : Nat))

theorem invariantInit : Invariant init where
  faithful := ⟨List.prefix_rfl,by simp [init],by simp [init]⟩
  producing := ⟨rfl,rfl,rfl⟩
  consuming := ⟨rfl,Nat.le_refl 0⟩
  roomy := Nat.zero_le _
  cells k _ less := absurd less (Nat.not_lt_zero k)

theorem consumingGrows {popped completed counted completed' counted' : Nat} {bufferStart : Int} {c : Consumer}
    (more : completed ≤ completed') (further : counted ≤ counted') (h : Consuming popped completed counted bufferStart c) :
    Consuming popped completed' counted' bufferStart c := by
  cases c with
  | outside left => exact ⟨h.1,Nat.le_trans h.2 further⟩
  | difference before => exact ⟨h.1,Nat.le_trans h.2.1 further,Nat.le_trans h.2.2 (Nat.sub_le_sub_right more _)⟩
  | negative before size =>
    obtain ⟨start,n,least,most,same⟩ := h
    exact ⟨start,n,least,Nat.le_trans most further,same⟩
  | correct before size =>
    obtain ⟨start,n,least,most,same⟩ := h
    exact ⟨start,n,least,Nat.le_trans most further,same⟩
  | fetch left => exact ⟨h.1,Nat.le_trans h.2 further⟩
  | increment left => exact ⟨h.1,h.2.1,Nat.le_trans h.2.2 further⟩
  | test left => exact ⟨h.1,h.2.1,Nat.le_trans h.2.2 further⟩
  | wrap left => exact ⟨h.1,h.2.1,h.2.2.1,Nat.le_trans h.2.2.2 further⟩

theorem consumingCounted {popped completed counted : Nat} {bufferStart : Int} {c : Consumer}
    (h : Consuming popped completed counted bufferStart c) : popped ≤ counted := by
  cases c with
  | outside left => exact Nat.le_trans (Nat.le_add_right _ _) h.2
  | difference before => exact h.2.1
  | negative before size =>
    obtain ⟨_,n,_,most,_⟩ := h
    exact Nat.le_trans (Nat.le_add_right _ _) most
  | correct before size =>
    obtain ⟨_,n,_,most,_⟩ := h
    exact Nat.le_trans (Nat.le_add_right _ _) most
  | fetch left => exact Nat.le_trans (Nat.le_add_right _ (left + 1)) h.2
  | increment left => exact Nat.le_trans (Nat.le_add_right _ _) h.2.2
  | test left => exact Nat.le_trans (Nat.le_add_right _ _) h.2.2
  | wrap left => exact Nat.le_trans (Nat.le_add_right _ _) h.2.2.2

theorem completedCounted (s : Ring) : s.completed ≤ s.counted := by
  unfold Ring.counted
  split
  · exact Nat.le_succ _
  · exact Nat.le_succ _
  · exact Nat.le_refl _

theorem countedStored {s : Ring} (h : Producing s.pushed s.stored s.completed s.bufferEnd s.producer) :
    s.counted ≤ s.stored := by
  unfold Ring.counted
  cases here : s.producer with
  | outside =>
    rw [here] at h
    exact Nat.le_of_eq h.2.1.symm
  | store dat =>
    rw [here] at h
    exact Nat.le_of_eq h.2.2.1.symm
  | increment =>
    rw [here] at h
    exact Nat.le_trans (Nat.le_succ _) (Nat.le_of_eq h.2.1.symm)
  | test =>
    rw [here] at h
    exact Nat.le_of_eq h.2.1.symm
  | wrap =>
    rw [here] at h
    exact Nat.le_of_eq h.2.1.symm

theorem storeKeeps {s : Ring} {dat : UInt8} (inv : Invariant s) (roomy : s.stored + 1 - s.popped.length ≤ 255)
    (here : s.producer = .store dat) :
    Invariant {s with buffer := Function.update s.buffer s.bufferEnd dat, indexes := s.indexes ++ [s.bufferEnd],
                      stored := s.stored + 1, producer := .increment} := by
  obtain ⟨⟨queue,sizes,inside⟩,producing,consuming,bounded,cells⟩ := inv
  rw [here] at producing
  obtain ⟨length,last,stored,stop⟩ := producing
  have within : 0 ≤ s.bufferEnd ∧ s.bufferEnd ≤ 255 := by omega
  refine ⟨⟨queue,sizes,fun i used => ?_⟩,⟨length,congrArg (· + 1) stored,stop⟩,?_,roomy,fun k least less => ?_⟩
  · rcases List.mem_append.mp used with earlier | now
    · exact inside i earlier
    · rw [List.mem_singleton.mp now]
      exact within
  · exact consumingGrows (Nat.le_refl _) (by simp [Ring.counted,here]) consuming
  · change s.pushed[k]? = some (Function.update s.buffer s.bufferEnd dat (k % 256 : Nat))
    change s.popped.length ≤ k at least
    rcases Nat.lt_succ_iff_lt_or_eq.mp less with earlier | rfl
    · have apart : ((k % 256 : Nat) : Int) ≠ s.bufferEnd := by omega
      rw [Function.update_of_ne apart]
      exact cells k least earlier
    · have cell : ((s.stored % 256 : Nat) : Int) = s.bufferEnd := by omega
      rw [cell,Function.update_self]
      exact last

theorem producerKeeps {s t : Ring} {e : Event} (inv : Invariant s) (roomy : t.unpopped ≤ 255)
    (source : ProducerSource s e t) : Invariant t := by
  have ⟨⟨queue,sizes,inside⟩,producing,consuming,bounded,cells⟩ := inv
  cases source with
  | @push dat here =>
    rw [here] at producing
    obtain ⟨length,stored,stop⟩ := producing
    refine ⟨⟨queue.trans (List.prefix_append _ _),sizes,inside⟩,⟨?_,?_,stored,stop⟩,?_,roomy,?_⟩
    · rw [List.length_append,length,List.length_singleton]
    · rw [← length,List.getElem?_concat_length]
    · exact consumingGrows (Nat.le_refl _) (by simp [Ring.counted,here]) consuming
    · intro k least less
      change (s.pushed ++ [dat])[k]? = _
      rw [List.getElem?_append_left (by rw [length]; exact less)]
      exact cells k least less
  | store here => exact storeKeeps inv roomy here
  | increment here =>
    rw [here] at producing
    obtain ⟨length,stored,stop⟩ := producing
    refine ⟨⟨queue,sizes,inside⟩,⟨length,stored,congrArg (· + 1) stop⟩,?_,roomy,cells⟩
    exact consumingGrows (Nat.le_refl _) (by simp [Ring.counted,here]) consuming
  | behind here past =>
    rw [here] at producing
    obtain ⟨length,stored,stop⟩ := producing
    have last : s.bufferEnd = 256 ∧ s.completed % 256 = 255 := by
      simp only [bufsize] at past
      omega
    refine ⟨⟨queue,sizes,inside⟩,⟨length,stored,last⟩,?_,roomy,cells⟩
    exact consumingGrows (Nat.le_refl _) (by simp [Ring.counted,here]) consuming
  | ahead here short =>
    rw [here] at producing
    obtain ⟨length,stored,stop⟩ := producing
    simp only [bufsize] at short
    refine ⟨⟨queue,sizes,inside⟩,⟨length,stored,?_⟩,?_,roomy,cells⟩
    · simp only [pushReturns]
      omega
    · exact consumingGrows (Nat.le_succ _) (by simp [Ring.counted,here,pushReturns]) consuming
  | wrap here =>
    rw [here] at producing
    obtain ⟨length,stored,stop,last⟩ := producing
    refine ⟨⟨queue,sizes,inside⟩,⟨length,stored,?_⟩,?_,roomy,cells⟩
    · simp only [pushReturns]
      omega
    · exact consumingGrows (Nat.le_succ _) (by simp [Ring.counted,here,pushReturns]) consuming

theorem endCounted {s : Ring} (h : Producing s.pushed s.stored s.completed s.bufferEnd s.producer) :
    s.bufferEnd = s.counted % 256 ∨ s.bufferEnd = 256 ∧ s.counted % 256 = 0 := by
  unfold Ring.counted
  cases here : s.producer with
  | outside =>
    rw [here] at h
    exact .inl h.2.2
  | store dat =>
    rw [here] at h
    exact .inl h.2.2.2
  | increment =>
    rw [here] at h
    exact .inl h.2.2
  | test =>
    rw [here] at h
    have stop := h.2.2
    dsimp only
    omega
  | wrap =>
    rw [here] at h
    have stop := h.2.2
    dsimp only
    omega

theorem sizeReturnsKeeps {s : Ring} {before n : Nat} (inv : Invariant s) (start : s.bufferStart = s.popped.length % 256)
    (least : before ≤ n) (most : s.popped.length + n ≤ s.counted) : Invariant (sizeReturns before n s) := by
  obtain ⟨⟨queue,sizes,inside⟩,producing,consuming,bounded,cells⟩ := inv
  have counted := countedStored producing
  refine ⟨⟨queue,fun r reported => ?_,inside⟩,producing,⟨start,most⟩,bounded,cells⟩
  rcases List.mem_append.mp reported with earlier | now
  · exact sizes r earlier
  · have most : (n : Int) ≤ s.unpopped := by
      unfold Ring.unpopped
      omega
    rw [List.mem_singleton.mp now]
    exact ⟨Int.ofNat_le.mpr least,most⟩

theorem prefixNext {left right : Bytes} {b : UInt8} (h : left <+: right) (found : right[left.length]? = some b) :
    left ++ [b] <+: right := by
  obtain ⟨rest,rfl⟩ := h
  rw [List.getElem?_append_right (Nat.le_refl _),Nat.sub_self] at found
  cases rest with
  | nil => cases found
  | cons c rest =>
    cases found
    exact ⟨rest,by rw [List.append_assoc]; rfl⟩

theorem differenceCounts {s : Ring} (inv : Invariant s) (start : s.bufferStart = s.popped.length % 256)
    (popped : s.popped.length ≤ s.counted) (apart : ¬ (s.bufferEnd = bufsize ∧ s.bufferStart = 0)) :
    s.bufferEnd - s.bufferStart = (s.counted - s.popped.length : Nat) ∨
      s.bufferEnd - s.bufferStart < 0 ∧ s.bufferEnd - s.bufferStart + 256 = (s.counted - s.popped.length : Nat) := by
  have few : s.counted - s.popped.length ≤ 255 :=
    Nat.le_trans (Nat.sub_le_sub_right (countedStored inv.producing) _) inv.roomy
  rcases endCounted inv.producing with stop | ⟨stop,last⟩
  · omega
  · have begun : s.bufferStart ≠ 0 := fun start => apart ⟨stop,start⟩
    omega

theorem fetchKeeps {s : Ring} {left : Nat} (inv : Invariant s) (here : s.consumer = .fetch left) :
    Invariant {s with popped := s.popped ++ [s.buffer s.bufferStart], indexes := s.indexes ++ [s.bufferStart],
                      consumer := .increment left} := by
  obtain ⟨⟨queue,sizes,inside⟩,producing,consuming,bounded,cells⟩ := inv
  have counted := countedStored producing
  rw [here] at consuming
  obtain ⟨start,most⟩ := consuming
  have cell : ((s.popped.length % 256 : Nat) : Int) = s.bufferStart := by omega
  have found := cells s.popped.length (Nat.le_refl _) (by omega)
  rw [cell] at found
  have length : (s.popped ++ [s.buffer s.bufferStart]).length = s.popped.length + 1 := List.length_append
  have shrunk : s.stored - (s.popped ++ [s.buffer s.bufferStart]).length ≤ 255 := by
    unfold Ring.unpopped at bounded
    omega
  refine ⟨⟨prefixNext queue found,sizes,fun i used => ?_⟩,producing,?_,shrunk,fun k least less => ?_⟩
  · rcases List.mem_append.mp used with earlier | now
    · exact inside i earlier
    · rw [List.mem_singleton.mp now]
      omega
  · simp only [Consuming,length]
    change _ ∧ _ ∧ s.popped.length + 1 + left ≤ s.counted
    omega
  · have beyond : s.popped.length ≤ k := Nat.le_trans (by rw [length]; exact Nat.le_succ _) least
    exact cells k beyond less

theorem consumerKeeps {s t : Ring} {e : Event} (inv : Invariant s) (wrapped : Wrapped s e) (source : ConsumerSource s e t) :
    Invariant t := by
  have ⟨⟨queue,sizes,inside⟩,producing,consuming,bounded,cells⟩ := inv
  have popped := consumingCounted consuming
  cases source with
  | getBufferSize here =>
    rw [here] at consuming
    exact ⟨⟨queue,sizes,inside⟩,producing,⟨consuming.1,popped,Nat.le_refl _⟩,bounded,cells⟩
  | pop here =>
    rw [here] at consuming
    exact ⟨⟨queue,sizes,inside⟩,producing,consuming,bounded,cells⟩
  | @difference before here =>
    rw [here] at consuming
    obtain ⟨start,_,least⟩ := consuming
    have counts := differenceCounts inv start popped (wrapped before rfl here)
    have moved := completedCounted s
    refine ⟨⟨queue,sizes,inside⟩,producing,⟨start,s.counted - s.popped.length,?_,?_,counts⟩,bounded,cells⟩
    · omega
    · exact Nat.le_of_eq (Nat.add_sub_of_le popped)
  | below here less =>
    rw [here] at consuming
    obtain ⟨start,n,least,most,same⟩ := consuming
    exact ⟨⟨queue,sizes,inside⟩,producing,⟨start,n,least,most,by omega⟩,bounded,cells⟩
  | @plain before size here more =>
    rw [here] at consuming
    obtain ⟨start,n,least,most,same⟩ := consuming
    obtain rfl : size = n := by omega
    exact sizeReturnsKeeps inv start least most
  | @correct before size here =>
    rw [here] at consuming
    obtain ⟨start,n,least,most,same⟩ := consuming
    change size + bufsize = n at same
    rw [same]
    exact sizeReturnsKeeps inv start least most
  | fetch here => exact fetchKeeps inv here
  | increment here =>
    rw [here] at consuming
    obtain ⟨start,unpopped,most⟩ := consuming
    exact ⟨⟨queue,sizes,inside⟩,producing,⟨congrArg (· + 1) start,unpopped,most⟩,bounded,cells⟩
  | behind here past =>
    rw [here] at consuming
    obtain ⟨start,unpopped,most⟩ := consuming
    have last : s.bufferStart = 256 ∧ (s.popped.length - 1) % 256 = 255 := by
      simp only [bufsize] at past
      omega
    exact ⟨⟨queue,sizes,inside⟩,producing,⟨last.1,last.2,unpopped,most⟩,bounded,cells⟩
  | ahead here short =>
    rw [here] at consuming
    obtain ⟨start,unpopped,most⟩ := consuming
    have still : s.bufferStart = s.popped.length % 256 := by
      simp only [bufsize] at short
      omega
    exact ⟨⟨queue,sizes,inside⟩,producing,⟨still,most⟩,bounded,cells⟩
  | wrap here =>
    rw [here] at consuming
    obtain ⟨start,last,unpopped,most⟩ := consuming
    have zero : (0 : Int) = s.popped.length % 256 := by omega
    exact ⟨⟨queue,sizes,inside⟩,producing,⟨zero,most⟩,bounded,cells⟩

theorem invariantStep {s t : Ring} {e : Event} (inv : Invariant s) (ok : RoomyWrapped s e) (taken : next s e = some t) :
    Invariant t := by
  rcases nextSource taken with source | source
  · exact producerKeeps inv (ok.1 t taken) source
  · exact consumerKeeps inv ok.2 source

def Overstated (s : Ring) : Prop := (∃ before, s.consumer = .negative before bufsize) ∨ ∃ r ∈ s.reports, r.after < r.size

theorem overstatedProducer {s t : Ring} {e : Event} (overstated : Overstated s) (source : ProducerSource s e t) :
    Overstated t := by
  cases source <;> exact overstated

theorem overstatedConsumer {s t : Ring} {e : Event} (overstated : Overstated s) (roomy : s.unpopped ≤ 255)
    (source : ConsumerSource s e t) : Overstated t := by
  rcases overstated with ⟨before,reading⟩ | ⟨r,reported,less⟩
  · cases source with
    | plain here more =>
      rw [reading] at here
      cases here
      refine .inr ⟨_,List.mem_append_right _ List.mem_cons_self,?_⟩
      have bounded : (s.unpopped : Int) ≤ 255 := Int.ofNat_le.mpr roomy
      have most : (255 : Int) < bufsize := by decide
      exact Int.lt_of_le_of_lt bounded most
    | below here less =>
      rw [reading] at here
      cases here
      exact absurd less (by decide)
    | getBufferSize here | pop here | difference here | correct here | fetch here | increment here | behind here
    | ahead here | wrap here =>
      rw [reading] at here
      cases here
  · cases source with
    | plain | correct => exact .inr ⟨r,List.mem_append_left _ reported,less⟩
    | _ => exact .inr ⟨r,reported,less⟩

theorem overstatedRun {s t : Ring} {events : List Event} (overstated : Overstated s) (roomy : s.unpopped ≤ 255)
    (run : Steps next Roomy s events t) : Overstated t := by
  refine (stepsInvariant (fun s => Overstated s ∧ s.unpopped ≤ 255) ?_ ⟨overstated,roomy⟩ run).1
  intro s e t ⟨overstated,roomy⟩ bounded taken
  refine ⟨?_,bounded t taken⟩
  rcases nextSource taken with source | source
  · exact overstatedProducer overstated source
  · exact overstatedConsumer overstated roomy source

theorem overstatedNow {s t : Ring} {e : Event} (taken : next s e = some t) (early : ¬ Wrapped s e) : Overstated t := by
  unfold Wrapped at early
  push Not at early
  obtain ⟨before,rfl,here,stop,start⟩ := early
  simp only [next,consume,here,Option.some.injEq] at taken
  rw [← taken]
  exact .inl ⟨before,by rw [stop,start,Int.sub_zero]⟩

theorem faithfulRun {t : Ring} {events : List Event} (run : Steps next RoomyWrapped init events t) : Faithful t :=
  (stepsInvariant Invariant (fun _ _ _ => invariantStep) invariantInit run).faithful

theorem wrappedRun {s t : Ring} {events : List Event} (inv : Invariant s) (run : Steps next Roomy s events t)
    (between : t.consumer.Outside) (faithful : Faithful t) : Steps next RoomyWrapped s events t := by
  induction run with
  | nil s => exact .nil s
  | @cons s u t e rest roomy taken later ih =>
    by_cases wrapped : Wrapped s e
    · exact .cons ⟨roomy,wrapped⟩ taken (ih (invariantStep inv ⟨roomy,wrapped⟩ taken) between faithful)
    · exfalso
      rcases overstatedRun (overstatedNow taken wrapped) (roomy u taken) later with ⟨before,here⟩ | ⟨r,reported,less⟩
      · rw [here] at between
        exact between
      · exact absurd (faithful.sizes r reported).2 (Int.not_le.mpr less)

def wrap (i : Int) : Int := if i ≥ bufsize then 0 else i

def Ring.distance (s : Ring) : Int :=
  let size := s.bufferEnd - s.bufferStart
  if size < 0 then size + bufsize else size

def Ring.push (dat : UInt8) (s : Ring) : Ring :=
  pushReturns {s with buffer := Function.update s.buffer s.bufferEnd dat, bufferEnd := wrap (s.bufferEnd + 1),
                      pushed := s.pushed ++ [dat], stored := s.stored + 1, indexes := s.indexes ++ [s.bufferEnd]}

def Ring.pop (left : Nat) (s : Ring) : Ring :=
  {s with bufferStart := wrap (s.bufferStart + 1), consumer := .outside left,
          popped := s.popped ++ [s.buffer s.bufferStart], indexes := s.indexes ++ [s.bufferStart]}

def Ring.size (s : Ring) : Ring := sizeReturns (s.completed - s.popped.length) s.distance s

def indexLines (i : Int) : Nat := if i + 1 ≥ bufsize then 4 else 3

def sizeLines (s : Ring) : Nat := if s.bufferEnd - s.bufferStart < 0 then 3 else 2

theorem pushAlone {s : Ring} (dat : UInt8) (here : s.producer = .outside) :
    Steps next Free s (.push dat :: List.replicate (indexLines s.bufferEnd) .producer) (s.push dat) := by
  have called : next s (.push dat) = some {s with pushed := s.pushed ++ [dat], producer := .store dat} := by
    simp only [next,if_pos here]
  by_cases past : s.bufferEnd + 1 ≥ bufsize
  · rw [indexLines,if_pos past]
    refine .cons trivial called (.cons trivial rfl (.cons trivial rfl (.cons trivial (if_pos past) (.cons trivial ?_ (.nil _)))))
    simp only [next,produce,Ring.push,wrap,if_pos past]
    rfl
  · rw [indexLines,if_neg past]
    refine .cons trivial called (.cons trivial rfl (.cons trivial rfl (.cons trivial ?_ (.nil _))))
    simp only [next,produce,Ring.push,wrap,if_neg past,pushReturns]

theorem popAlone {s : Ring} {left : Nat} (here : s.consumer = .outside (left + 1)) :
    Steps next Free s (.pop :: List.replicate (indexLines s.bufferStart) .consumer) (s.pop left) := by
  have called : next s .pop = some {s with consumer := .fetch left} := by
    simp only [next,here]
  by_cases past : s.bufferStart + 1 ≥ bufsize
  · rw [indexLines,if_pos past]
    refine .cons trivial called (.cons trivial rfl (.cons trivial rfl (.cons trivial (if_pos past) (.cons trivial ?_ (.nil _)))))
    simp only [next,consume,Ring.pop,wrap,if_pos past]
  · rw [indexLines,if_neg past]
    refine .cons trivial called (.cons trivial rfl (.cons trivial rfl (.cons trivial ?_ (.nil _))))
    simp only [next,consume,Ring.pop,wrap,if_neg past]

theorem sizeAlone {s : Ring} {left : Nat} (here : s.consumer = .outside left) :
    Steps next Free s (.getBufferSize :: List.replicate (sizeLines s) .consumer) s.size := by
  have called : next s .getBufferSize = some {s with consumer := .difference (s.completed - s.popped.length)} := by
    simp only [next,here]
  by_cases less : s.bufferEnd - s.bufferStart < 0
  · rw [sizeLines,if_pos less]
    refine .cons trivial called (.cons trivial rfl (.cons trivial (if_pos less) (.cons trivial ?_ (.nil _))))
    simp only [next,consume,Ring.size,Ring.distance,if_pos less]
    rfl
  · rw [sizeLines,if_neg less]
    refine .cons trivial called (.cons trivial rfl (.cons trivial ?_ (.nil _)))
    simp only [next,consume,Ring.size,Ring.distance,if_neg less]
    rfl

/- The globals hold the ring `b` of the model in which every call is one step. -/
structure Holds (s : Ring) (b : Buffer) : Prop where
  start : s.bufferStart = b.start.val
  stop : s.bufferEnd = b.stop.val
  cells : ∀ i, s.buffer (i.val : Int) = b.cells i

theorem wrapAdvance (i : Fin bufsize) : wrap ((i.val : Int) + 1) = (RingBuffer.advance i).val := by
  have small := i.isLt
  unfold wrap RingBuffer.advance
  split
  · rename_i past
    rw [dif_neg (by omega)]
    rfl
  · rename_i inside
    rw [dif_pos (by omega)]
    rfl

theorem holdsPush {s : Ring} {b : Buffer} (dat : UInt8) (holds : Holds s b) : Holds (s.push dat) (bufferPush dat b) := by
  obtain ⟨start,stop,cells⟩ := holds
  refine ⟨start,?_,fun i => ?_⟩
  · change wrap (s.bufferEnd + 1) = _
    rw [stop,wrapAdvance]
    rfl
  · change Function.update s.buffer s.bufferEnd dat i.val = Function.update b.cells b.stop dat i
    rw [stop]
    by_cases here : i = b.stop
    · rw [here,Function.update_self,Function.update_self]
    · have apart : (i.val : Int) ≠ b.stop.val := fun same => here (Fin.ext (Int.ofNat_inj.mp same))
      rw [Function.update_of_ne apart,Function.update_of_ne here,cells]

theorem holdsPop {s : Ring} {b : Buffer} (left : Nat) (holds : Holds s b) : Holds (s.pop left) (bufferPop b).2 ∧
    (s.pop left).popped = s.popped ++ [(bufferPop b).1] := by
  obtain ⟨start,stop,cells⟩ := holds
  refine ⟨⟨?_,stop,cells⟩,?_⟩
  · change wrap (s.bufferStart + 1) = _
    rw [start,wrapAdvance]
    rfl
  · change s.popped ++ [s.buffer s.bufferStart] = s.popped ++ [b.cells b.start]
    rw [start,cells]

theorem holdsSize {s : Ring} {b : Buffer} (holds : Holds s b) : s.distance = getBufferSize b := by
  unfold Ring.distance
  rw [holds.start,holds.stop]
  rfl

theorem callsAtomic {s : Ring} {b : Buffer} (holds : Holds s b) :
    (s.producer = .outside → ∀ dat, ∃ events t, Steps next Free s events t ∧ Holds t (bufferPush dat b)) ∧
      (∀ left, s.consumer = .outside (left + 1) → ∃ events t, Steps next Free s events t ∧
        Holds t (bufferPop b).2 ∧ t.popped = s.popped ++ [(bufferPop b).1]) ∧
      (∀ left, s.consumer = .outside left → ∃ events t before, Steps next Free s events t ∧ Holds t b ∧
        t.reports = s.reports ++ [⟨before,getBufferSize b,s.unpopped⟩]) := by
  refine ⟨fun here dat => ⟨_,_,pushAlone dat here,holdsPush dat holds⟩,fun left here => ?_,fun left here => ?_⟩
  · exact ⟨_,_,popAlone here,holdsPop left holds⟩
  · refine ⟨_,_,s.completed - s.popped.length,sizeAlone here,⟨holds.start,holds.stop,holds.cells⟩,?_⟩
    rw [← holdsSize holds]
    rfl

def Ring.started (s : Ring) : Nat :=
  match s.producer with
  | .store _ => s.stored + 1
  | _ => s.stored

def Event.isPush : Event → Bool
  | push _ => true
  | _ => false

theorem startedStep {s t : Ring} {e : Event} (taken : next s e = some t) :
    t.started ≤ s.started + [e].countP Event.isPush ∧ s.popped.length ≤ t.popped.length := by
  rcases nextSource taken with source | source
  · cases source with
    | push here => simp [Ring.started,here,Event.isPush]
    | store here | increment here | behind here past | ahead here short | wrap here =>
      simp [Ring.started,here,pushReturns,Event.isPush]
  · cases source <;> simp [Ring.started,sizeReturns]

theorem storedStarted (s : Ring) : s.stored ≤ s.started := by
  unfold Ring.started
  split
  · exact Nat.le_succ _
  · exact Nat.le_refl _

theorem roomyRun {s t : Ring} {events : List Event} (run : Steps next Free s events t)
    (few : s.started + events.countP Event.isPush ≤ s.popped.length + 255) : Steps next Roomy s events t := by
  induction run with
  | nil s => exact .nil s
  | @cons s u t e rest _ taken later ih =>
    obtain ⟨grown,popped⟩ := startedStep taken
    have counts : (e :: rest).countP Event.isPush = [e].countP Event.isPush + rest.countP Event.isPush := by
      rw [← List.singleton_append,List.countP_append]
    refine .cons (fun v same => ?_) taken (ih (by omega))
    cases taken.symm.trans same
    have stored := storedStarted u
    unfold Ring.unpopped
    omega

structure Turned (n : Nat) (s : Ring) : Prop where
  producer : s.producer = .outside
  consumer : s.consumer = .outside 0
  start : s.bufferStart = n
  stop : s.bufferEnd = n
  stored : s.stored = n
  completed : s.completed = n
  popped : s.popped.length = n

def sizeAndPop : List Event := [.getBufferSize,.consumer,.consumer,.pop,.consumer,.consumer,.consumer]

def turn : List Event := .push 7 :: .producer :: .producer :: .producer :: sizeAndPop

theorem turnRun {n : Nat} {s : Ring} (turned : Turned n s) (short : n < 255) :
    ∃ t, Steps next Roomy s turn t ∧ Turned (n + 1) t := by
  obtain ⟨producer,consumer,start,stop,stored,completed,popped⟩ := turned
  have lines : indexLines n = 3 := if_neg (by simp only [bufsize]; omega)
  have wrapped : wrap ((n : Int) + 1) = n + 1 := if_neg (by simp only [bufsize]; omega)
  have distance : (s.push 7).distance = 1 := by
    simp only [Ring.distance,Ring.push,pushReturns,start,stop,wrapped]
    omega
  have pushed := pushAlone 7 producer
  have sized := sizeAlone (s := s.push 7) consumer
  have told : (s.push 7).size.consumer = .outside (0 + 1) := by
    simp only [Ring.size,sizeReturns,distance]
    rfl
  have taken := popAlone told
  have starts : (s.push 7).size.bufferStart = n := start
  have positive : sizeLines (s.push 7) = 2 := by
    refine if_neg ?_
    simp only [Ring.push,pushReturns,start,stop,wrapped]
    omega
  rw [stop,lines] at pushed
  rw [positive] at sized
  rw [starts,lines] at taken
  refine ⟨_,roomyRun (stepsAppend pushed (stepsAppend sized taken)) ?_,?_⟩
  · simp only [Ring.started,producer,stored,popped]
    exact Nat.add_le_add_left (by decide) n
  · refine ⟨rfl,rfl,?_,?_,congrArg (· + 1) stored,congrArg (· + 1) completed,?_⟩
    · simp only [Ring.pop,starts,wrapped]
      rfl
    · simp only [Ring.pop,Ring.size,sizeReturns,Ring.push,pushReturns,stop,wrapped]
      rfl
    · simp only [Ring.pop,List.length_append,List.length_singleton]
      exact congrArg (· + 1) popped

theorem turnsRun {n : Nat} (short : n ≤ 255) :
    ∃ t, Steps next Roomy init (List.replicate n turn).flatten t ∧ Turned n t := by
  induction n with
  | zero => exact ⟨init,.nil _,rfl,rfl,rfl,rfl,rfl,rfl,rfl⟩
  | succ n ih =>
    obtain ⟨s,run,turned⟩ := ih (Nat.le_of_succ_le short)
    obtain ⟨t,more,next⟩ := turnRun turned short
    refine ⟨t,?_,next⟩
    rw [List.replicate_succ',List.flatten_append,List.flatten_singleton]
    exact stepsAppend run more

theorem boundedQueue {t : Ring} {events : List Event} (run : Steps next Roomy init events t) :
    (Steps next RoomyWrapped init events t → Faithful t) ∧
      (t.consumer.Outside → Faithful t → Steps next RoomyWrapped init events t) :=
  ⟨faithfulRun,fun between faithful => wrappedRun invariantInit run between faithful⟩

def turned : Ring := ((init.push 7).size).pop 0

theorem boundedQueueTurn : Steps next RoomyWrapped init turn turned ∧ Faithful turned := by
  have each {s t : Ring} {e : Event} (taken : next s e = some t) (few : t.unpopped ≤ 255) (stop : s.bufferEnd ≠ bufsize) :
      RoomyWrapped s e := by
    refine ⟨fun u same => ?_,fun _ _ _ h => stop h.1⟩
    cases taken.symm.trans same
    exact few
  have run : Steps next RoomyWrapped init turn turned :=
    .cons (each rfl (by decide) (by decide)) rfl (.cons (each rfl (by decide) (by decide)) rfl
      (.cons (each rfl (by decide) (by decide)) rfl (.cons (each rfl (by decide) (by decide)) rfl
      (.cons (each rfl (by decide) (by decide)) rfl (.cons (each rfl (by decide) (by decide)) rfl
      (.cons (each rfl (by decide) (by decide)) rfl (.cons (each rfl (by decide) (by decide)) rfl
      (.cons (each rfl (by decide) (by decide)) rfl (.cons (each rfl (by decide) (by decide)) rfl
      (.cons (each rfl (by decide) (by decide)) rfl (.nil _)))))))))))
  exact ⟨run,(boundedQueue (roomyRun (stepsFree run) (by decide))).1 run⟩

/- The 256th byte is counted and popped before `buffer_end` has wrapped: nothing is left, and the
next call of `get_buffer_size` says 256. -/
def stalled : List Event :=
  [.push 7,.producer,.producer] ++ (sizeAndPop ++ [.consumer]) ++ [.getBufferSize,.consumer,.consumer]

theorem stalledRun {s : Ring} (turned : Turned 255 s) : ∃ t, Steps next Roomy s stalled t ∧
    t.stored = 256 ∧ t.popped.length = 256 ∧ ⟨0,256,0⟩ ∈ t.reports := by
  obtain ⟨producer,consumer,start,stop,stored,completed,popped⟩ := turned
  let u : Ring := {s with buffer := Function.update s.buffer s.bufferEnd 7, bufferEnd := s.bufferEnd + 1, producer := .test,
                          pushed := s.pushed ++ [7], stored := s.stored + 1, indexes := s.indexes ++ [s.bufferEnd]}
  have counted : Steps next Free s [.push 7,.producer,.producer] u := by
    have called : next s (.push 7) = some {s with pushed := s.pushed ++ [7], producer := .store 7} := by
      simp only [next,if_pos producer]
    exact .cons trivial called (.cons trivial rfl (.cons trivial rfl (.nil _)))
  have one : u.distance = 1 := by
    simp only [Ring.distance,u,start,stop]
    rfl
  have told : u.size.consumer = .outside (0 + 1) := by
    simp only [Ring.size,sizeReturns,one]
    rfl
  have sized := sizeAlone (s := u) consumer
  have taken := popAlone told
  have again := sizeAlone (s := u.size.pop 0) rfl
  have begun : (u.size.pop 0).bufferStart = 0 := by
    change wrap (s.bufferStart + 1) = 0
    rw [start]
    rfl
  have behind : (u.size.pop 0).bufferEnd = 256 := by
    change s.bufferEnd + 1 = 256
    rw [stop]
    rfl
  have all : (u.size.pop 0).distance = 256 := by
    simp only [Ring.distance,begun,behind]
    rfl
  have length : (u.size.pop 0).popped.length = 256 := by
    simp only [Ring.pop,List.length_append,List.length_singleton]
    exact congrArg (· + 1) popped
  have total : (u.size.pop 0).stored = 256 := congrArg (· + 1) stored
  have done : (u.size.pop 0).completed = 255 := completed
  have reported : (⟨0,256,0⟩ : Report) ∈ (u.size.pop 0).size.reports := by
    refine List.mem_append_right _ (List.mem_singleton.mpr ?_)
    rw [all,Ring.unpopped,length,total,done]
  have lines : sizeLines u = 2 := by
    simp only [sizeLines,u,start,stop]
    rfl
  have wraps : indexLines u.size.bufferStart = 4 := by
    change indexLines s.bufferStart = 4
    rw [start]
    rfl
  have still : sizeLines (u.size.pop 0) = 2 := by
    simp only [sizeLines,begun,behind]
    rfl
  rw [lines] at sized
  rw [wraps] at taken
  rw [still] at again
  have whole := stepsAppend counted (stepsAppend sized (stepsAppend taken again))
  refine ⟨(u.size.pop 0).size,roomyRun whole ?_,total,length,reported⟩
  simp only [Ring.started,producer,stored,popped]
  decide

theorem sizeBeforeWrap : ∃ t, Steps next Roomy init ((List.replicate 255 turn).flatten ++ stalled) t ∧
    t.stored = 256 ∧ t.popped.length = 256 ∧ ⟨0,256,0⟩ ∈ t.reports ∧ ¬ Faithful t := by
  obtain ⟨s,turns,turned⟩ := turnsRun (Nat.le_refl 255)
  obtain ⟨t,last,stored,popped,reported⟩ := stalledRun turned
  refine ⟨t,stepsAppend turns last,stored,popped,reported,fun faithful => ?_⟩
  exact absurd (faithful.sizes _ reported).2 (by decide)

end Assignments
end RTno2Proxy
