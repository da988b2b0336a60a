import NutsOS.Terminal.Printf

-- What print leaves of the memory: a text that stays on the screen writes the
-- screen's cells and nothing else.
namespace NutsOS.Terminal
open Word32 Stdutil

def OfScreen (a : Nat) : Prop := 0xB8000 ≤ a ∧ a < 0xB8000+2*(vgaWidth*vgaHeight)

def charsAt (memory : Nat → UInt8) (str first count : Nat) : List UInt8 :=
  (List.range' first count).map (fun i => memory (charAddress str i))

structure Written (s : Machine) (text : List UInt8) (t : Machine) : Prop where
  screen : t.screen = s.screen.writeAll text
  kernel : t.kernel = s.kernel
  video : t.videoMem = s.videoMem
  memory : ∀ a, ¬ OfScreen a → t.memory a = s.memory a

theorem putchar_memory {s : Machine} (video : s.videoMem = 0xB8000) (row : y < vgaHeight) (col : x < vgaWidth) (c colour : UInt8) :
    ∃ t, terminalPutchar x y c colour s = .ok ((),t) ∧ t.kernel = s.kernel ∧ t.videoMem = s.videoMem ∧
      t.terminalRow = s.terminalRow ∧ t.terminalCol = s.terminalCol ∧ ∀ a, ¬ OfScreen a → t.memory a = s.memory a := by
  refine ⟨_,rfl,rfl,rfl,rfl,rfl,fun a off => ?_⟩
  unfold OfScreen at off
  unfold vgaHeight vgaWidth at *
  have low : toUint32 ((s.videoMem+2*(y*80+x) : Nat) : Int) = 0xB8000+2*(y*80+x) := by
    rw [video,toUint32_natCast (by omega)]
  have high : toUint32 ((0xB8000+2*(y*80+x)+1 : Nat) : Int) = 0xB8000+2*(y*80+x)+1 := toUint32_natCast (by omega)
  dsimp only
  rw [low,high,if_neg (by omega),if_neg (by omega)]

theorem Written.refl (s : Machine) : Written s [] s := ⟨rfl,rfl,rfl,fun _ _ => rfl⟩

theorem Written.trans (one : Written s text t) (two : Written t rest u) : Written s (text++rest) u := by
  refine ⟨?_,two.kernel.trans one.kernel,two.video.trans one.video,fun a off => (two.memory a off).trans (one.memory a off)⟩
  rw [two.screen,one.screen]
  exact (List.foldl_append).symm

theorem Written.unseen (written : Written (s.seen addresses) text t) : Written s text t :=
  ⟨written.screen,written.kernel,written.video,written.memory⟩

theorem writechar_written {s : Machine} (video : s.videoMem = 0xB8000) (col : s.terminalCol < vgaWidth)
    (here : c = 10 ∨ s.terminalRow < vgaHeight) : ∃ t, terminalWritechar c 15 s = .ok ((),t) ∧ Written s [c] t := by
  obtain ⟨t,ran,screen⟩ := sendToTerminal_run s c
  suffices kept : t.kernel = s.kernel ∧ t.videoMem = s.videoMem ∧ ∀ a, ¬ OfScreen a → t.memory a = s.memory a from
    ⟨t,ran,screen,kept.1,kept.2.1,kept.2.2⟩
  unfold sendToTerminal terminalWritechar at ran
  by_cases newline : c = 10
  · rw [if_pos newline] at ran
    cases ran
    exact ⟨rfl,rfl,fun _ _ => rfl⟩
  · rw [if_neg newline,Prog.get_bind,Prog.get_bind] at ran
    obtain ⟨put,written,kernel,video',_,_,memory⟩ := putchar_memory video (here.resolve_left newline) col c 15
    rw [Prog.bind_run written,Prog.get_bind] at ran
    obtain ⟨⟨⟩,moved,set,ran⟩ := Prog.bind_ok.mp ran
    cases set
    rw [Prog.get_bind] at ran
    by_cases wraps : (Machine.terminalCol {put with terminalCol := uint16 (put.terminalCol+1)}) ≥ vgaWidth
    · rw [Prog.when_true wraps] at ran
      cases ran
      exact ⟨kernel,video',memory⟩
    · rw [Prog.when_false wraps] at ran
      cases ran
      exact ⟨kernel,video',memory⟩

theorem printLoop_written {s : Machine} (video : s.videoMem = 0xB8000) (inside : Inside s.screen)
    (same : ∀ a, ¬ OfScreen a → s.memory a = memory a) (off : ∀ i < count, ¬ OfScreen (charAddress str (first+i)))
    (fits : Fits s.terminalRow s.terminalCol (charsAt memory str first count)) :
    ∃ t, printLoop str count first s = .ok ((),t) ∧ Written s (charsAt memory str first count) t := by
  induction count generalizing s first with
  | zero => exact ⟨s,rfl,.refl s⟩
  | succ count ih =>
    have here := off 0 (Nat.succ_pos _)
    rw [Nat.add_zero] at here
    have char : s.memory (charAddress str first) = memory (charAddress str first) := same _ here
    have text : charsAt memory str first (count+1) = memory (charAddress str first)::charsAt memory str (first+1) count := by
      unfold charsAt
      rw [List.range'_succ,List.map_cons]
    rw [text] at fits ⊢
    obtain ⟨now,later⟩ := (fits_cons s.screen inside.row inside.col _ _).mp fits
    obtain ⟨one,ran,written⟩ := writechar_written (s := s.seen [charAddress str first]) video inside.col now
    have moved : one.screen = s.screen.write (memory (charAddress str first)) := written.screen
    have on : Inside one.screen := by
      rw [moved]
      obtain ⟨row,col⟩ := write_bounds s.screen inside.row inside.col (memory (charAddress str first))
      exact ⟨(write_inside s.screen inside _).mpr now,row,col⟩
    have clear : ∀ i < count, ¬ OfScreen (charAddress str (first+1+i)) := by
      intro i less
      rw [Nat.add_assoc,Nat.add_comm 1]
      exact off (i+1) (Nat.succ_lt_succ less)
    rw [← moved] at later
    obtain ⟨t,rest,written'⟩ := ih (written.video.trans video) on (fun a off => (written.memory a off).trans (same a off)) clear later
    refine ⟨t,?_,written.unseen.trans written'⟩
    rw [printLoop,Prog.bind_run (readByte_run s _),char,Prog.bind_run ran]
    exact rest

theorem print_written {s : Machine} (video : s.videoMem = 0xB8000) (inside : Inside s.screen) (ends : Ends s.memory str len)
    (off : ∀ i < len, ¬ OfScreen (charAddress str i)) (fits : Fits s.terminalRow s.terminalCol (charsAt s.memory str 0 len)) :
    ∃ t, print str s = .ok ((),t) ∧ Written s (charsAt s.memory str 0 len) t := by
  have scanned := strlenLoop_run s str len 4294967296 0 ends.bounded (by simpa using ends.nul) (by simpa using ends.chars)
  rw [Nat.zero_add] at scanned
  have clear : ∀ i < len, ¬ OfScreen (charAddress str (0+i)) := fun i less => by rw [Nat.zero_add]; exact off i less
  obtain ⟨t,ran,written⟩ := printLoop_written (s := s.seen (charAddresses str 0 (len+1))) video inside (fun _ _ => rfl) clear fits
  refine ⟨t,?_,written.unseen⟩
  unfold print strlenAt
  rw [Prog.bind_run scanned]
  exact ran

end NutsOS.Terminal
