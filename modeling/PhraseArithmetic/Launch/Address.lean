import PhraseArithmetic.Text.Numeral

/-!
# Listen addresses

An address is a host, a colon and a port; the last colon parts them.
-/
namespace PhraseArithmetic.Launch

inductive AddressFault where
  | noColon
  | port
  deriving DecidableEq, Repr

namespace AddressFault

def message : AddressFault → String
  | noColon => "invalid socket address"
  | port => "invalid port value"

/-- What is wrong with the form of an address; hosts are not looked up. -/
def of? (address : String) : Option AddressFault :=
  let text := address.toList
  if !text.contains ':' then some noColon
  else
    let portText := (text.reverse.takeWhile (· ≠ ':')).reverse
    if (Text.unsigned? 16 portText).isNone then some port else none

/-- What was being done with an address when it was found faulty. -/
def activity (address : String) : String := s!"binding {address}"

def report (f : AddressFault) (address : String) : String := s!"{activity address}: {f.message}"

end AddressFault
end PhraseArithmetic.Launch
