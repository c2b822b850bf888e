import Mathlib.Tactic.Common

/-!
# Input events and key codes

`include/kernel/input.h` and the codes of `include/kernel/input_codes.h` that
the scan code tables and the decoder of the keyboard driver use.  Every code
fits the `u8` entries of those tables.
-/

namespace Kernull.Input

/-- `INPUT_FLAG_KEY_RELEASED`. -/
def inputFlagKeyReleased : BitVec 16 := 0x1

/-- `struct input_event`. -/
structure InputEvent where
  flags : BitVec 16
  code : BitVec 16
  deriving DecidableEq

/-! ## Key codes -/

def keyEsc : BitVec 8 := 0x01
def key1 : BitVec 8 := 0x02
def key2 : BitVec 8 := 0x03
def key3 : BitVec 8 := 0x04
def key4 : BitVec 8 := 0x05
def key5 : BitVec 8 := 0x06
def key6 : BitVec 8 := 0x07
def key7 : BitVec 8 := 0x08
def key8 : BitVec 8 := 0x09
def key9 : BitVec 8 := 0x0A
def key0 : BitVec 8 := 0x0B
def keyMinus : BitVec 8 := 0x0C
def keyEqual : BitVec 8 := 0x0D
def keyBackspace : BitVec 8 := 0x0E
def keyTab : BitVec 8 := 0x0F
def keyQ : BitVec 8 := 0x10
def keyW : BitVec 8 := 0x11
def keyE : BitVec 8 := 0x12
def keyR : BitVec 8 := 0x13
def keyT : BitVec 8 := 0x14
def keyY : BitVec 8 := 0x15
def keyU : BitVec 8 := 0x16
def keyI : BitVec 8 := 0x17
def keyO : BitVec 8 := 0x18
def keyP : BitVec 8 := 0x19
def keyLeftbrace : BitVec 8 := 0x1A
def keyRightbrace : BitVec 8 := 0x1B
def keyEnter : BitVec 8 := 0x1C
def keyLeftctrl : BitVec 8 := 0x1D
def keyA : BitVec 8 := 0x1E
def keyS : BitVec 8 := 0x1F
def keyD : BitVec 8 := 0x20
def keyF : BitVec 8 := 0x21
def keyG : BitVec 8 := 0x22
def keyH : BitVec 8 := 0x23
def keyJ : BitVec 8 := 0x24
def keyK : BitVec 8 := 0x25
def keyL : BitVec 8 := 0x26
def keySemicolon : BitVec 8 := 0x27
def keyApostrophe : BitVec 8 := 0x28
def keyGrave : BitVec 8 := 0x29
def keyLeftshift : BitVec 8 := 0x2A
def keyBackslash : BitVec 8 := 0x2B
def keyZ : BitVec 8 := 0x2C
def keyX : BitVec 8 := 0x2D
def keyC : BitVec 8 := 0x2E
def keyV : BitVec 8 := 0x2F
def keyB : BitVec 8 := 0x30
def keyN : BitVec 8 := 0x31
def keyM : BitVec 8 := 0x32
def keyComma : BitVec 8 := 0x33
def keyDot : BitVec 8 := 0x34
def keySlash : BitVec 8 := 0x35
def keyRightshift : BitVec 8 := 0x36
def keyKpAsterisk : BitVec 8 := 0x37
def keyLeftalt : BitVec 8 := 0x38
def keySpace : BitVec 8 := 0x39
def keyCapslock : BitVec 8 := 0x3A
def keyF1 : BitVec 8 := 0x3B
def keyF2 : BitVec 8 := 0x3C
def keyF3 : BitVec 8 := 0x3D
def keyF4 : BitVec 8 := 0x3E
def keyF5 : BitVec 8 := 0x3F
def keyF6 : BitVec 8 := 0x40
def keyF7 : BitVec 8 := 0x41
def keyF8 : BitVec 8 := 0x42
def keyF9 : BitVec 8 := 0x43
def keyF10 : BitVec 8 := 0x44
def keyNumlock : BitVec 8 := 0x45
def keyScrolllock : BitVec 8 := 0x46
def keyKp7 : BitVec 8 := 0x47
def keyKp8 : BitVec 8 := 0x48
def keyKp9 : BitVec 8 := 0x49
def keyKpMinus : BitVec 8 := 0x4A
def keyKp5 : BitVec 8 := 0x4C
def keyKp6 : BitVec 8 := 0x4D
def keyKpPlus : BitVec 8 := 0x4E
def keyKp1 : BitVec 8 := 0x4F
def keyKp2 : BitVec 8 := 0x50
def keyKp3 : BitVec 8 := 0x51
def keyKp0 : BitVec 8 := 0x52
def keyKpDot : BitVec 8 := 0x53
def keyF11 : BitVec 8 := 0x57
def keyF12 : BitVec 8 := 0x58
def keyKpEnter : BitVec 8 := 0x60
def keyRightctrl : BitVec 8 := 0x61
def keyKpSlash : BitVec 8 := 0x62
def keySysrq : BitVec 8 := 0x63
def keyRightalt : BitVec 8 := 0x64
def keyHome : BitVec 8 := 0x66
def keyUp : BitVec 8 := 0x67
def keyLeft : BitVec 8 := 0x69
def keyRight : BitVec 8 := 0x6A
def keyEnd : BitVec 8 := 0x6B
def keyDown : BitVec 8 := 0x6C
def keyPagedown : BitVec 8 := 0x6D
def keyInsert : BitVec 8 := 0x6E
def keyDelete : BitVec 8 := 0x6F
def keyMute : BitVec 8 := 0x71
def keyVolumedown : BitVec 8 := 0x72
def keyVolumeup : BitVec 8 := 0x73
def keyPower : BitVec 8 := 0x74
def keyPause : BitVec 8 := 0x77
def keyLeftmeta : BitVec 8 := 0x7D
def keyRightmeta : BitVec 8 := 0x7E
def keyStop : BitVec 8 := 0x80
def keyCalc : BitVec 8 := 0x8C
def keySleep : BitVec 8 := 0x8E
def keyWakeup : BitVec 8 := 0x8F
def keyWww : BitVec 8 := 0x96
def keyBookmarks : BitVec 8 := 0x9C
def keyComputer : BitVec 8 := 0x9D
def keyBack : BitVec 8 := 0x9E
def keyForward : BitVec 8 := 0x9F
def keyNextsong : BitVec 8 := 0xA3
def keyPrevioussong : BitVec 8 := 0xA5
def keyStopcd : BitVec 8 := 0xA6
def keyHomepage : BitVec 8 := 0xAC
def keyRefresh : BitVec 8 := 0xAD
def keyAllApplications : BitVec 8 := 0xCC
def keyPlay : BitVec 8 := 0xCF
def keyEmail : BitVec 8 := 0xD7
def keyMedia : BitVec 8 := 0xE2

end Kernull.Input
