import Funge93.Viewer.Scene

/-!
# The window

The window passes what happens on to its scene, but for one key: when the run is
over, R begins it anew. It then draws from the seed it had or, if it had none, from
the next key that the system makes up. Everything that can happen is an `Occurrence`,
so the history of a window is a list of them. Drawing changes nothing.
-/

namespace Funge93.Viewer

inductive Occurrence where
  /-- Time has gone by, in microseconds. -/
  | update (time : Nat)
  | keyDown (key : Key) (control : Bool)
  | keyUp (key : Key)
  | typed (c : Char)
  | draw
deriving DecidableEq

structure Window where
  scene : Scene
  /-- Whether it has been asked to close. -/
  quitRequested : Bool
  /-- What later runs are to draw from if there is no seed. -/
  entropy : Random.Entropy

namespace Window

def opened (setup : Setup) (entropy : Random.Entropy) : Window where
  scene := Scene.start setup entropy
  quitRequested := false
  entropy := entropy.left setup.seed

def restart (w : Window) : Window :=
  { w with
    scene := Scene.start w.scene.setup w.entropy
    entropy := w.entropy.left w.scene.setup.seed }

def keyDown (w : Window) (key : Key) (control : Bool) : Except Machine.NotAwaiting Window :=
  if w.scene.isFinished && key == .r then .ok w.restart
  else
    match w.scene.keyDown key control with
    | .error e => .error e
    | .ok scene =>
      .ok { w with scene := scene, quitRequested := w.quitRequested || w.scene.quits key }

def handle (w : Window) : Occurrence → Except Machine.NotAwaiting Window
  | .update time => .ok { w with scene := w.scene.update time }
  | .keyDown key control => w.keyDown key control
  | .keyUp _ => .ok w
  | .typed c => .ok { w with scene := w.scene.charTyped c }
  | .draw => .ok w

def handleAll : Window → List Occurrence → Except Machine.NotAwaiting Window
  | w, [] => .ok w
  | w, o :: rest => do (← w.handle o).handleAll rest

end Window

end Funge93.Viewer
