import RTno2Proxy.Exchange

/-! The frames that reach a call. Whatever else is on the line, the outcome of a wait is
settled by the one frame the transport hands over, and that of a retry loop by the first
frame that one of its waits takes for success. -/
namespace RTno2Proxy
open Imperative
open EnumClass (toByte ofByte)
open Line (Took tookNothing)

def Line.sent (setting : Setting) (w : Line) (p : Packet) : Line := p.frame.foldl (Line.receiveByte setting) w

theorem Line.sentAccept {setting : Setting} {w : Line} {p : Packet} (small : p.data.length ≤ 252)
    (waiting : w.incoming = []) : w.sent setting p = w.accept setting p := foldFrame small waiting

theorem Line.sentPolls (setting : Setting) (w : Line) (p : Packet) : (w.sent setting p).polls = w.polls := by
  unfold Line.sent
  induction p.frame generalizing w with
  | nil => rfl
  | cons b rest ih =>
    refine (ih _).trans ?_
    unfold Line.receiveByte
    dsimp only
    split <;> rfl

theorem Line.sentTimely {setting : Setting} {w : Line} (timely : w.Timely) (p : Packet) : (w.sent setting p).Timely := by
  rw [Line.Timely,Line.sentPolls]
  exact timely

namespace Transport
variable {setting : Setting} {waitUsec : UInt32}

theorem sizeUnfailing : ((Line.host setting).device.getSizeInRxBuffer).Unfailing :=
  Program.errorsStep fun _ => ⟨_,_,rfl⟩

theorem readUnfailing (buffer : Bytes) (size : UInt8) : (read (Line.host setting) buffer size waitUsec).Unfailing := by
  unfold read
  split
  · exact Program.errorsPure _
  · refine Program.errorsBind (Program.errorsLoop (fun _ => ?_) ()) (fun _ ready _ _ => ?_)
    · refine Program.errorsBind sizeUnfailing (fun _ available _ _ => ?_)
      split
      · exact Program.errorsPure _
      · refine Program.errorsBind (Program.errorsStep fun w => ⟨_,_,rfl⟩) (fun _ expired _ _ => ?_)
        split
        · exact Program.errorsPure _
        · exact Program.errorsPure _
    · split
      · exact Program.errorsBind (Program.errorsStep fun w => ⟨_,_,rfl⟩) (fun _ _ _ _ => Program.errorsPure _)
      · exact Program.errorsPure _

theorem readByteUnfailing (buf : UInt8) : (readByte (Line.host setting) buf waitUsec).Unfailing :=
  Program.errorsBind (readUnfailing [buf] 1) fun _ _ _ _ => Program.errorsPure _

theorem isNewUnfailing : (isNew (Line.host setting) waitUsec).Unfailing := by
  refine Program.errorsBind (Program.errorsPure _) (fun _ buf _ _ => Program.errorsLoop (fun buf => ?_) _)
  refine Program.errorsBind (readByteUnfailing buf) (fun _ first _ _ => ?_)
  split
  · exact Program.errorsPure _
  · split
    · exact Program.errorsPure _
    · refine Program.errorsBind (readByteUnfailing _) (fun _ second _ _ => ?_)
      split
      · exact Program.errorsPure _
      · split
        · exact Program.errorsPure _
        · exact Program.errorsPure _

theorem receiveUnfailing : (receive (Line.host setting) waitUsec).Unfailing := by
  refine Program.errorsBind (Program.errorsPure _) (fun _ _ _ _ => ?_)
  refine Program.errorsBind (readUnfailing _ _) (fun _ head _ _ => ?_)
  split
  · exact Program.errorsPure _
  · refine Program.errorsBind (Program.errorsPure _) (fun _ _ _ _ => ?_)
    refine Program.errorsBind (Program.errorsPure _) (fun _ _ _ _ => ?_)
    refine Program.errorsBind (readUnfailing _ _) (fun _ body _ _ => ?_)
    split
    · exact Program.errorsPure _
    · refine Program.errorsBind (Program.errorsPure _) (fun _ _ _ _ => ?_)
      refine Program.errorsBind (readByteUnfailing _) (fun _ last _ _ => ?_)
      split
      · exact Program.errorsPure _
      · split
        · exact Program.errorsPure _
        · exact Program.errorsPure _

theorem writeUnfailing (buffer : Bytes) (size : UInt8) : (write (Line.host setting) buffer size).Unfailing := by
  refine Program.errorsBind ?_ (fun _ _ _ _ => Program.errorsPure _)
  induction buffer.take size.toNat with
  | nil => exact Program.errorsPure _
  | cons b rest ih => exact Program.errorsBind (Program.errorsStep fun w => ⟨_,_,rfl⟩) fun _ _ _ _ => ih

theorem sendUnfailing (p : Packet) : (send (Line.host setting) p).Unfailing := by
  refine Program.errorsBind (writeUnfailing _ _) (fun _ result _ _ => ?_)
  split
  · exact Program.errorsPure _
  · refine Program.errorsBind (writeUnfailing _ _) (fun _ result _ _ => ?_)
    split
    · exact Program.errorsPure _
    · refine Program.errorsBind (writeUnfailing _ _) (fun _ result _ _ => ?_)
      split
      · exact Program.errorsPure _
      · exact Program.errorsPure _

theorem sendSent (setting : Setting) (w : Line) (p : Packet) :
    (send (Line.host setting) p).Returns w .ok (w.sent setting p) := sendReturns.mpr ⟨rfl,rfl⟩

theorem receiveCoupled {w t : Line} {out : ResultT Packet} (h : (receive (Line.host setting) waitUsec).Returns w out t) :
    (∃ p, out = .ofValue p) ∨ ∃ failed, failed ≠ Result.ok ∧ out = .ofResult failed := by
  cases receiveSource h with
  | header => exact .inr ⟨_,by simp,rfl⟩
  | body => exact .inr ⟨_,by simp,rfl⟩
  | checksum => exact .inr ⟨_,by simp,rfl⟩
  | damaged => exact .inr ⟨_,by simp,rfl⟩
  | packet => exact .inl ⟨_,rfl⟩

end Transport

namespace Protocol
open Transport (receiveCoupled sendSent sendUnfailing isNewUnfailing receiveUnfailing)
variable {setting : Setting} {waitUsec : UInt32} {α : Type}

def Delivers (setting : Setting) (waitUsec : UInt32) (w : Line) (p : Packet) (t : Line) : Prop :=
  ∃ u, (Transport.isNew (Line.host setting) waitUsec).Returns w .ok u ∧
    (Transport.receive (Line.host setting) waitUsec).Returns u (.ofValue p) t

theorem deliversUnique {w t u : Line} {p q : Packet} (left : Delivers setting waitUsec w p t)
    (right : Delivers setting waitUsec w q u) : p = q ∧ t = u := by
  obtain ⟨_,new,first⟩ := left
  obtain ⟨_,again,second⟩ := right
  obtain ⟨_,rfl⟩ := Program.returnsUnique new again
  obtain ⟨same,rfl⟩ := Program.returnsUnique first second
  cases same
  exact ⟨rfl,rfl⟩

theorem waitDelivered {c : Command} {w t : Line} {p : Packet} (delivered : Delivers setting waitUsec w p t) :
    (waitAndReceiveCommand (Line.host setting) c waitUsec).Returns w (awaited c p) t := by
  obtain ⟨u,new,received⟩ := delivered
  refine Program.returnsBind.mpr ⟨_,u,new,Program.returnsBind.mpr ⟨_,t,received,
    Program.returnsBind.mpr ⟨p,t,valueReturns.mpr ⟨rfl,rfl⟩,?_⟩⟩⟩
  by_cases same : p.command = c
  · rw [awaited,if_pos same,if_pos same]
    exact Program.returnsPure.mpr ⟨rfl,rfl⟩
  · by_cases report : p.command = .packetError
    · rw [awaited,if_neg same,if_pos report,if_neg same,if_pos report]
      exact Program.returnsPure.mpr ⟨rfl,rfl⟩
    · rw [awaited,if_neg same,if_neg report,if_neg same,if_neg report]
      exact Program.returnsPure.mpr ⟨rfl,rfl⟩

theorem awaitedValue {c : Command} {p q : Packet} : (awaited c p).value = some q ↔ p.command = c ∧ q = p := by
  unfold awaited
  by_cases same : p.command = c
  · simp [same,ResultT.ofValue,eq_comm]
  · rw [if_neg same]
    split <;> simp [same,ResultT.ofResult]

theorem awaitedOwn {p : Packet} : (awaited p.command p).result = .ok := by simp [awaited,ResultT.ofValue]

theorem deliversTook {w t : Line} {p : Packet} (delivered : Delivers setting waitUsec w p t) :
    ∃ raw, Line.Took w raw t := waitTook (waitDelivered (c := p.command) delivered)

theorem waitSource {c : Command} {w t : Line} {result : ResultT Packet}
    (h : (waitAndReceiveCommand (Line.host setting) c waitUsec).Returns w result t) :
    (∃ p, Delivers setting waitUsec w p t ∧ result = awaited c p) ∨
      (∃ failed, failed ≠ Result.ok ∧ result = .ofResult failed) ∧ ∀ p u, ¬ Delivers setting waitUsec w p u := by
  by_cases arrived : ∃ p u, Delivers setting waitUsec w p u
  · obtain ⟨p,u,delivered⟩ := arrived
    obtain ⟨rfl,rfl⟩ := Program.returnsUnique h (waitDelivered delivered)
    exact .inl ⟨p,delivered,rfl⟩
  · refine .inr ⟨?_,fun p u delivered => arrived ⟨p,u,delivered⟩⟩
    obtain ⟨found,u,new,atReceive⟩ := Program.returnsBind.mp h
    split at atReceive
    · rename_i ok
      obtain ⟨out,v,received,atCommand⟩ := Program.returnsBind.mp atReceive
      rcases receiveCoupled received with ⟨p,rfl⟩ | ⟨failed,bad,rfl⟩
      · exact absurd ⟨p,v,u,ok ▸ new,received⟩ arrived
      · rw [if_pos (show (ResultT.ofResult (α := Packet) failed).result ≠ .ok from bad)] at atCommand
        obtain ⟨rfl,rfl⟩ := Program.returnsPure.mp atCommand
        exact ⟨failed,bad,rfl⟩
    · rename_i bad
      obtain ⟨rfl,rfl⟩ := Program.returnsPure.mp atReceive
      exact ⟨found,bad,rfl⟩

theorem waitUnfailing (setting : Setting) (c : Command) (waitUsec : UInt32) :
    (waitAndReceiveCommand (Line.host setting) c waitUsec).Unfailing := by
  refine Program.errorsBind isNewUnfailing (fun _ found _ _ => ?_)
  split
  · refine Program.errorsBind receiveUnfailing (fun _ out _ received => ?_)
    split
    · exact Program.errorsPure _
    · rename_i ok
      rcases receiveCoupled received with ⟨p,rfl⟩ | ⟨failed,bad,rfl⟩
      · refine Program.errorsBind (Program.errorsPure _) (fun _ pac _ _ => ?_)
        split
        · exact Program.errorsPure _
        · split
          · exact Program.errorsPure _
          · exact Program.errorsPure _
      · exact absurd (not_not.mp ok) bad
  · exact Program.errorsPure _

theorem attemptReturns {c : Command} {exit : ResultT Packet → Act Line α} {w t : Line} {out : Option α} :
    (attempt (Line.host setting) c waitUsec exit).Returns w out t ↔
      ∃ result u, (waitAndReceiveCommand (Line.host setting) c waitUsec).Returns (w.sent setting (command c)) result u ∧
        ((result.result ≠ .ok ∧ out = none ∧ t = u) ∨
          result.result = .ok ∧ ∃ a, out = some a ∧ (exit result).Returns u a t) := by
  constructor
  · intro h
    obtain ⟨_,x,sent,atWait⟩ := Program.returnsBind.mp h
    obtain ⟨_,rfl⟩ := Transport.sendReturns.mp sent
    obtain ⟨result,u,waited,last⟩ := Program.returnsBind.mp atWait
    refine ⟨result,u,waited,?_⟩
    split at last
    · rename_i ok
      obtain ⟨a,v,exited,after⟩ := Program.returnsBind.mp last
      obtain ⟨rfl,rfl⟩ := Program.returnsPure.mp after
      exact .inr ⟨ok,a,rfl,exited⟩
    · rename_i bad
      exact .inl ⟨bad,Program.returnsPure.mp last⟩
  · rintro ⟨result,u,waited,last⟩
    refine Program.returnsBind.mpr ⟨_,_,sendSent setting w _,Program.returnsBind.mpr ⟨result,u,waited,?_⟩⟩
    rcases last with ⟨bad,rfl,rfl⟩ | ⟨ok,a,rfl,exited⟩
    · rw [if_neg bad]
      exact Program.returnsPure.mpr ⟨rfl,rfl⟩
    · rw [if_pos ok]
      exact Program.returnsBind.mpr ⟨a,t,exited,Program.returnsPure.mpr ⟨rfl,rfl⟩⟩

theorem attemptAccepted {c : Command} {exit : ResultT Packet → Act Line α} {w t : Line} {out : Option α}
    (waiting : w.incoming = []) (h : (attempt (Line.host setting) c waitUsec exit).Returns w out t) :
    ∃ result u, (waitAndReceiveCommand (Line.host setting) c waitUsec).Returns (w.accept setting (command c)) result u ∧
      ((result.result ≠ .ok ∧ out = none ∧ t = u) ∨
        result.result = .ok ∧ ∃ a, out = some a ∧ (exit result).Returns u a t) := by
  rw [← Line.sentAccept (Nat.zero_le _) waiting]
  exact attemptReturns.mp h

theorem attemptRaises {c : Command} {exit : ResultT Packet → Act Line α} {w t : Line} {e : Fault} :
    (attempt (Line.host setting) c waitUsec exit).Raises w e t ↔
      ∃ result u, (waitAndReceiveCommand (Line.host setting) c waitUsec).Returns (w.sent setting (command c)) result u ∧
        result.result = .ok ∧ (exit result).Raises u e t := by
  constructor
  · intro h
    rcases Program.raisesBind.mp h with bad | ⟨_,x,sent,atWait⟩
    · exact (sendUnfailing _ _ _ _ bad).elim
    · obtain ⟨_,rfl⟩ := Transport.sendReturns.mp sent
      rcases Program.raisesBind.mp atWait with bad | ⟨result,u,waited,last⟩
      · exact (waitUnfailing _ _ _ _ _ _ bad).elim
      · refine ⟨result,u,waited,?_⟩
        split at last
        · rename_i ok
          rcases Program.raisesBind.mp last with exited | ⟨a,v,_,after⟩
          · exact ⟨ok,exited⟩
          · exact absurd after Program.pureNever
        · exact absurd last Program.pureNever
  · rintro ⟨result,u,waited,ok,exited⟩
    refine Program.raisesBind.mpr (.inr ⟨_,_,sendSent setting w _,Program.raisesBind.mpr (.inr ⟨result,u,waited,?_⟩)⟩)
    rw [if_pos ok]
    exact Program.raisesBind.mpr (.inl exited)

def Missed (setting : Setting) (waitUsec : UInt32) (c : Command) : Nat → Line → Line → Prop :=
  Program.Fails (attempt (Line.host setting) c waitUsec fun _ => pure ())

theorem failsMissed {c : Command} {exit : ResultT Packet → Act Line α} {k : Nat} {w t : Line} :
    Program.Fails (attempt (Line.host setting) c waitUsec exit) k w t ↔ Missed setting waitUsec c k w t := by
  have pass {β γ : Type} {exit : ResultT Packet → Act Line β} (other : ResultT Packet → Act Line γ) {w u : Line}
      (failed : (attempt (Line.host setting) c waitUsec exit).Returns w none u) :
      (attempt (Line.host setting) c waitUsec other).Returns w none u := by
    obtain ⟨result,v,waited,last⟩ := attemptReturns.mp failed
    rcases last with ⟨bad,_,rfl⟩ | ⟨_,_,bad,_⟩
    · exact attemptReturns.mpr ⟨result,u,waited,.inl ⟨bad,rfl,rfl⟩⟩
    · cases bad
  constructor
  · intro fails
    induction fails with
    | zero => exact .zero _
    | succ first later ih => exact .succ (pass _ first) ih
  · intro missed
    unfold Missed at missed
    induction missed with
    | zero => exact .zero _
    | succ first later ih => exact .succ (pass _ first) ih

/- The call of `n` attempts gets to see the frame `p`. -/
def Hears (setting : Setting) (waitUsec : UInt32) (c : Command) (n : Nat) (w : Line) (p : Packet) : Prop :=
  ∃ k < n, ∃ u v, Missed setting waitUsec c k w u ∧ Delivers setting waitUsec (u.sent setting (command c)) p v

theorem attemptsSource {c : Command} {exit : ResultT Packet → Act Line α} {after a : α} {n : Nat} {w t : Line}
    (h : (Program.attempts (attempt (Line.host setting) c waitUsec exit) after n).Returns w a t) :
    (∃ k < n, ∃ u v p, Missed setting waitUsec c k w u ∧ Delivers setting waitUsec (u.sent setting (command c)) p v ∧
        (awaited c p).result = .ok ∧ (exit (awaited c p)).Returns v a t) ∨
      Missed setting waitUsec c n w t ∧ a = after := by
  rcases Program.attemptsReturns.mp h with ⟨k,less,u,fails,last⟩ | ⟨fails,same⟩
  · obtain ⟨result,v,waited,bad | ⟨ok,b,same,exited⟩⟩ := attemptReturns.mp last
    · simp at bad
    · cases same
      rcases waitSource waited with ⟨p,delivered,rfl⟩ | ⟨⟨failed,bad,rfl⟩,_⟩
      · exact .inl ⟨k,less,u,v,p,failsMissed.mp fails,delivered,ok,exited⟩
      · exact absurd ok bad
  · exact .inr ⟨failsMissed.mp fails,same⟩

theorem missedUnique {c : Command} {k : Nat} {w t u : Line} (left : Missed setting waitUsec c k w t)
    (right : Missed setting waitUsec c k w u) : t = u := Program.failsUnique left right

theorem missedShort {c : Command} {k n : Nat} {w u v t : Line} {p : Packet} (short : Missed setting waitUsec c k w u)
    (delivered : Delivers setting waitUsec (u.sent setting (command c)) p v) (ok : (awaited c p).result = .ok)
    (long : Missed setting waitUsec c n w t) : n ≤ k := by
  refine Program.failsShort short (a := ()) (t := v) (attemptReturns.mpr ?_) long
  exact ⟨_,v,waitDelivered delivered,.inr ⟨ok,(),rfl,Program.returnsPure.mpr ⟨rfl,rfl⟩⟩⟩

theorem missedHears {c : Command} {n : Nat} {w t : Line} {p : Packet} (missed : Missed setting waitUsec c n w t)
    (heard : Hears setting waitUsec c n w p) : (awaited c p).result ≠ .ok := by
  intro ok
  obtain ⟨k,less,u,v,before,delivered⟩ := heard
  have short := missedShort before delivered ok missed
  omega

theorem hearsLast {c : Command} {n k : Nat} {w u v : Line} {p q : Packet} (missed : Missed setting waitUsec c k w u)
    (delivered : Delivers setting waitUsec (u.sent setting (command c)) p v) (ok : (awaited c p).result = .ok)
    (heard : Hears setting waitUsec c n w q) : q = p ∨ (awaited c q).result ≠ .ok := by
  by_cases fine : (awaited c q).result = .ok
  · obtain ⟨j,_,x,y,before,other⟩ := heard
    have less := missedShort missed delivered ok before
    have more := missedShort before other fine missed
    obtain rfl : j = k := by omega
    obtain rfl := missedUnique missed before
    exact .inl (deliversUnique other delivered).1
  · exact .inr fine

def afterFrame {σ : Type} (c : Command) (exit : ResultT Packet → Act σ α) (other : α) (p : Packet) : Act σ α :=
  if (awaited c p).result = .ok then exit (awaited c p) else pure other

def answer {σ : Type} (h : Host σ) (c : Command) (waitUsec : UInt32) (exit : ResultT Packet → Act σ α) (other : α) :
    Act σ α := do
  let result ← waitAndReceiveCommand h c waitUsec
  if result.result = .ok then exit result else pure other

theorem answerReturns {c : Command} {exit : ResultT Packet → Act Line α} {other a : α} {w t : Line}
    (h : (answer (Line.host setting) c waitUsec exit other).Returns w a t) :
    (a = other ∧ ∀ p u, Delivers setting waitUsec w p u → (awaited c p).result ≠ .ok) ∨
      ∃ p u, Delivers setting waitUsec w p u ∧ (awaited c p).result = .ok ∧ (exit (awaited c p)).Returns u a t := by
  obtain ⟨result,u,waited,last⟩ := Program.returnsBind.mp h
  split at last
  · rename_i ok
    rcases waitSource waited with ⟨p,delivered,rfl⟩ | ⟨⟨failed,bad,rfl⟩,_⟩
    · exact .inr ⟨p,u,delivered,ok,last⟩
    · exact absurd ok bad
  · rename_i failed
    refine .inl ⟨(Program.returnsPure.mp last).1,fun p x delivered ok => failed ?_⟩
    rw [(Program.returnsUnique waited (waitDelivered delivered)).1,ok]

theorem answerRaises {c : Command} {exit : ResultT Packet → Act Line α} {other : α} {w t : Line} {e : Fault} :
    (answer (Line.host setting) c waitUsec exit other).Raises w e t ↔
      ∃ p u, Delivers setting waitUsec w p u ∧ (afterFrame c exit other p).Raises u e t := by
  constructor
  · intro h
    rcases Program.raisesBind.mp h with bad | ⟨result,u,waited,last⟩
    · exact (waitUnfailing _ _ _ _ _ _ bad).elim
    · rcases waitSource waited with ⟨p,delivered,rfl⟩ | ⟨⟨failed,bad,rfl⟩,_⟩
      · exact ⟨p,u,delivered,last⟩
      · rw [if_neg (show (ResultT.ofResult (α := Packet) failed).result ≠ .ok from bad)] at last
        exact absurd last Program.pureNever
  · rintro ⟨p,u,delivered,raised⟩
    exact Program.raisesBind.mpr (.inr ⟨awaited c p,u,waitDelivered delivered,raised⟩)

theorem attemptsRaise {c : Command} {exit : ResultT Packet → Act Line α} {after : α} {n : Nat} {w t : Line} {e : Fault} :
    (Program.attempts (attempt (Line.host setting) c waitUsec exit) after n).Raises w e t ↔
      ∃ k < n, ∃ u p v, Missed setting waitUsec c k w u ∧ Delivers setting waitUsec (u.sent setting (command c)) p v ∧
        (afterFrame c exit after p).Raises v e t := by
  refine Program.raisesAttempts.trans ?_
  constructor
  · rintro ⟨k,less,u,fails,last⟩
    obtain ⟨result,v,waited,ok,exited⟩ := attemptRaises.mp last
    rcases waitSource waited with ⟨p,delivered,rfl⟩ | ⟨⟨failed,bad,rfl⟩,_⟩
    · refine ⟨k,less,u,p,v,failsMissed.mp fails,delivered,?_⟩
      rwa [afterFrame,if_pos ok]
    · exact absurd ok bad
  · rintro ⟨k,less,u,p,v,missed,delivered,raised⟩
    unfold afterFrame at raised
    split at raised
    · rename_i ok
      exact ⟨k,less,u,failsMissed.mpr missed,attemptRaises.mpr ⟨_,v,waitDelivered delivered,ok,raised⟩⟩
    · exact absurd raised Program.pureNever

end Protocol
end RTno2Proxy
