import MxLang.Text.Basic

/-!
# Hosts

An instruction travels as the host of a mail exchanger record: its text with the first space
written as a dash, below a namespace that no real host belongs to.
-/

namespace MxLang.Host

open Text

/-- The namespace used when none is given. -/
def defaultNamespace : Text := "mexico.invalid".toList

/-- The namespace as it ends a host, with one dot before and after it. -/
def suffix (ns : Text) : Text :=
  '.' :: trim (· == '.') ns ++ ['.']

/-- The host of an instruction. -/
def encode (ns code : Text) : Text :=
  replaceFirst ' ' '-' code ++ suffix ns

/-- Whether a host lies below the namespace. -/
def isBelow (ns host : Text) : Bool :=
  endsIn (suffix ns) host && (suffix ns).length < host.length

/-- The instruction of a host: as many characters as the namespace's ending has are cut off. -/
def decode (ns host : Text) : Text :=
  replaceFirst '-' ' ' (host.take (host.length - (suffix ns).length))

end MxLang.Host
