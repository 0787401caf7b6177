import RTno2Proxy.Exchange

/-! `get_profile` reading one answer: the port frames in the order announced, closed by
a GET_PROFILE frame. -/
namespace RTno2Proxy
open Imperative
open EnumClass (toByte ofByte)
open Line (Took tookNothing)

namespace Protocol
open Transport (uint32Max isNewLocks receiveFramed wholeMarked verdict)
variable {setting : Setting} {waitUsec : UInt32}

def IsPort (p : Packet) : Prop := p.command = .inportProfile ∨ p.command = .outportProfile

inductive Announces : List Packet → List PortProfile → List PortProfile → Prop where
  | nil : Announces [] [] []
  | inport {p q frames inports outports} (command : p.command = .inportProfile) (parsed : parsePortProfile p = .ok q)
      (later : Announces frames inports outports) : Announces (p :: frames) (q :: inports) outports
  | outport {p q frames inports outports} (command : p.command = .outportProfile) (parsed : parsePortProfile p = .ok q)
      (later : Announces frames inports outports) : Announces (p :: frames) inports (q :: outports)

def profileAttempt {σ : Type} (h : Host σ) (waitUsec : UInt32) : Act σ (Option (ResultT Profile)) := do
  let _ ← Transport.send h (.initialise .getProfile .ok [] 0)
  .loop (getProfilePass h waitUsec) .empty

theorem getProfilePassTook {profile : Profile} {w t : Line} {x : Profile ⊕ Option (ResultT Profile)}
    (h : (getProfilePass (Line.host setting) waitUsec profile).Returns w x t) : ∃ raw, Took w raw t := by
  obtain ⟨found,u,hf,atReceive⟩ := Program.returnsBind.mp h
  obtain ⟨_,first⟩ := (Transport.isNewSource hf).took
  split at atReceive
  · obtain ⟨_,rfl⟩ := Program.returnsPure.mp atReceive
    exact ⟨_,first⟩
  · obtain ⟨out,v,hr,atFrame⟩ := Program.returnsBind.mp atReceive
    obtain ⟨_,second⟩ := (Transport.receiveSource hr).took
    have same : t = v := by
      split at atFrame
      · split at atFrame
        · exact (Program.returnsPure.mp atFrame).2
        · exact (Program.returnsPure.mp atFrame).2
      · obtain ⟨pac,_,hv,last⟩ := Program.returnsBind.mp atFrame
        obtain ⟨_,rfl⟩ := valueReturns.mp hv
        exact (Program.returnsLift.mp last).2
    rw [same]
    exact ⟨_,first.append second⟩

theorem getProfilePassTimely (setting : Setting) (waitUsec : UInt32) {profile : Profile} {p : Packet} {rest : Bytes}
    {w : Line} {x : Profile ⊕ Option (ResultT Profile)} (timely : w.Timely) (stream : w.stream = p.whole ++ rest)
    (frame : profileFrame profile p = .ok x) :
    ∃ t, (getProfilePass (Line.host setting) waitUsec profile).Returns w x t ∧ t.stream = rest ∧ ∃ raw, Took w raw t := by
  obtain ⟨u,t,raw,hf,hr,left,took⟩ := Transport.nextFrame setting waitUsec timely (stream ▸ wholeMarked p rest)
  exact ⟨t,Program.returnsBind.mpr ⟨.ok,u,hf,Program.returnsBind.mpr ⟨.ofValue p,t,hr,
    Program.returnsBind.mpr ⟨p,t,valueReturns.mpr ⟨rfl,rfl⟩,Program.returnsLift.mpr ⟨frame,rfl⟩⟩⟩⟩,left,raw,took⟩

theorem profileFrameInport (profile : Profile) {p : Packet} {x : Profile ⊕ Option (ResultT Profile)}
    (command : p.command = .inportProfile) :
    profileFrame profile p = .ok x ↔ ∃ q, parsePortProfile p = .ok q ∧ x = .inl (profile.appendInPort q) := by
  simp only [profileFrame,command]
  exact Program.exceptBind.trans (by simp [eq_comm])

theorem profileFrameOutport (profile : Profile) {p : Packet} {x : Profile ⊕ Option (ResultT Profile)}
    (command : p.command = .outportProfile) :
    profileFrame profile p = .ok x ↔ ∃ q, parsePortProfile p = .ok q ∧ x = .inl (profile.appendOutPort q) := by
  simp only [profileFrame,command]
  exact Program.exceptBind.trans (by simp [eq_comm])

theorem getProfileLoopTook {profile : Profile} {w t : Line} {out : Option (ResultT Profile)}
    (h : (Program.loop (getProfilePass (Line.host setting) waitUsec) profile).Returns w out t) :
    ∃ raw, Took w raw t := by
  refine Program.loopRule (motive := fun _ w _ t => ∃ raw, Took w raw t) ?_ ?_ h
  · intro _ _ _ _ pass
    exact getProfilePassTook pass
  · intro _ _ _ _ _ _ pass later
    obtain ⟨_,first⟩ := getProfilePassTook pass
    obtain ⟨_,rest⟩ := later
    exact ⟨_,first.append rest⟩

theorem profileFrameOther {profile : Profile} {p : Packet} {x : Profile ⊕ Option (ResultT Profile)}
    (other : p.command ≠ .getProfile) (port : ¬ IsPort p) (h : profileFrame profile p = .ok x) :
    x = .inl profile ∨ ∃ failed, failed ≠ Result.ok ∧ x = .inr (some (.ofResult failed)) := by
  obtain ⟨notIn,notOut⟩ := not_or.mp port
  unfold profileFrame at h
  split at h
  · contradiction
  · contradiction
  · contradiction
  · cases h
    exact .inr ⟨_,by simp,rfl⟩
  · cases h
    exact .inr ⟨_,by simp,rfl⟩
  · cases h
    exact .inr ⟨_,by simp,rfl⟩
  · cases h
    exact .inl rfl

theorem getProfileLoopTimely (setting : Setting) (waitUsec : UInt32) (profile : Profile) {frames : List Packet} {last : Packet}
    {inports outports : List PortProfile} {rest : Bytes} {w : Line} (timely : w.Timely)
    (announced : Announces frames inports outports) (closing : last.command = .getProfile)
    (stream : w.stream = frames.flatMap Packet.whole ++ (last.whole ++ rest)) :
    ∃ t, (Program.loop (getProfilePass (Line.host setting) waitUsec) profile).Returns w
        (some (.ofValue ⟨profile.inports ++ inports,profile.outports ++ outports⟩)) t ∧ t.stream = rest := by
  induction announced generalizing profile w with
  | nil =>
    have frame : profileFrame profile last = .ok (.inr (some (.ofValue profile))) := by
      simp only [profileFrame,closing]
    obtain ⟨t,pass,left,_⟩ := getProfilePassTimely setting waitUsec timely stream frame
    rw [List.append_nil,List.append_nil]
    exact ⟨t,Program.returnsLoop.mpr (.inl pass),left⟩
  | inport command parsed later ih =>
    rw [List.flatMap_cons,List.append_assoc] at stream
    have frame := (profileFrameInport profile command).mpr ⟨_,parsed,rfl⟩
    obtain ⟨u,pass,left,_,took⟩ := getProfilePassTimely setting waitUsec timely stream frame
    obtain ⟨t,more,empty⟩ := ih _ (took.timely timely) left
    have whole := Program.returnsLoop.mpr (.inr ⟨_,_,pass,more⟩)
    rw [Profile.appendInPort] at whole
    simp only [List.append_assoc] at whole
    exact ⟨t,whole,empty⟩
  | outport command parsed later ih =>
    rw [List.flatMap_cons,List.append_assoc] at stream
    have frame := (profileFrameOutport profile command).mpr ⟨_,parsed,rfl⟩
    obtain ⟨u,pass,left,_,took⟩ := getProfilePassTimely setting waitUsec timely stream frame
    obtain ⟨t,more,empty⟩ := ih _ (took.timely timely) left
    have whole := Program.returnsLoop.mpr (.inr ⟨_,_,pass,more⟩)
    rw [Profile.appendOutPort] at whole
    simp only [List.append_assoc] at whole
    exact ⟨t,whole,empty⟩

end Protocol
end RTno2Proxy
