import Keyfob.Text.Basic

/-!
# Media keys

The keys of the consumer page that a keyboard with media controls has.
-/
namespace Keyfob

/-- A key that controls sound or playback. -/
inductive MediaKey where
  | volumeUp
  | volumeDown
  | mute
  | playPause
  | stop
  | nextTrack
  | prevTrack
deriving DecidableEq

namespace MediaKey

/-- Every media key. -/
def all : List MediaKey := [volumeUp, volumeDown, mute, playPause, stop, nextTrack, prevTrack]

/-- The number of a media key on the consumer usage page. -/
def usage : MediaKey → UInt16
  | volumeUp => 0xe9
  | volumeDown => 0xea
  | mute => 0xe2
  | playPause => 0xcd
  | stop => 0xb7
  | nextTrack => 0xb5
  | prevTrack => 0xb6

/-- The name under which a media key is shown. -/
def name : MediaKey → Text
  | volumeUp => "VolumeUp"
  | volumeDown => "VolumeDown"
  | mute => "Mute"
  | playPause => "PlayPause"
  | stop => "Stop"
  | nextTrack => "Next"
  | prevTrack => "Prev"

/-- The word that names a media key in a macro. -/
def word : MediaKey → Text
  | volumeUp => "VOL_UP"
  | volumeDown => "VOL_DOWN"
  | mute => "MUTE"
  | playPause => "PLAY_PAUSE"
  | stop => "STOP"
  | nextTrack => "NEXT"
  | prevTrack => "PREV"

/-- The words that are read as media keys. -/
def aliases : List (String × MediaKey) :=
  [("VOL_UP", volumeUp), ("VOLUP", volumeUp), ("VOLUME_UP", volumeUp),
   ("VOL_DOWN", volumeDown), ("VOLDOWN", volumeDown), ("VOLUME_DOWN", volumeDown),
   ("MUTE", mute),
   ("PLAY_PAUSE", playPause), ("PLAYPAUSE", playPause), ("PLAY", playPause),
   ("PAUSE", playPause),
   ("STOP", stop),
   ("NEXT", nextTrack), ("NEXT_TRACK", nextTrack),
   ("PREV", prevTrack), ("PREVIOUS", prevTrack), ("PREV_TRACK", prevTrack)]

/-- The media key that a word names, in any letter case and between any blanks. -/
def parse? (t : Text) : Option MediaKey := aliases.lookup (String.ofList t.trim.upper)

/-- Whether the key sets the volume, so that tapping it repeatedly goes on changing it. -/
def repeats : MediaKey → Bool
  | volumeUp | volumeDown => true
  | _ => false

end MediaKey

end Keyfob
