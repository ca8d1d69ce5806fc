import PushBuild.Network.Address
import PushBuild.Text.Cut

/-!
Which hosts are reached without the proxy.

Hosts of the own network are, and those on a list from the environment: an asterisk stands for all,
a domain for itself and what is below it, with or without a dot in front.
-/

namespace PushBuild.Proxy

open PushBuild.Text

/-- The host of an address with or without a scheme: what is left without user, port and path.  A
path alone has no host. -/
def hostOf (url : String) : String :=
  let authority (cs : List Char) : List Char :=
    let cs := cs.takeWhile fun c => c != '/' && c != '?' && c != '#'
    let cs := afterLast '@' cs
    match cs with
    | '[' :: _ => before ']' cs ++ (if cs.contains ']' then [']'] else [])
    | cs => before ':' cs
  let rec afterScheme : List Char → Option (List Char)
    | ':' :: '/' :: '/' :: rest => some rest
    | _ :: rest => afterScheme rest
    | [] => none
  String.ofList (authority ((afterScheme url.toList).getD url.toList))

/-- Whether a host is one of the own network: a private or loopback address, or a name that only
resolves there. -/
def isInternal (host : String) : Bool :=
  let bare := dropEndWhile (· == ']') (host.toList.dropWhile (· == '['))
  match IpAddress.ofChars? bare with
  | some address => address.isPrivate || address.isLoopback
  | none =>
    let name := String.ofList bare
    name == "localhost" || endsIn ".local" name || endsIn ".internal" name

/-- Whether an entry of the list stands for a host. -/
def covers (entry : List Char) (host : String) : Bool :=
  entry == ['*'] ||
    let domain := match entry with
      | '.' :: rest => String.ofList rest
      | entry => String.ofList entry
    host == domain || endsIn ("." ++ domain) host

/-- Whether a list with commas has an entry that stands for a host. -/
def listCovers (list host : String) : Bool :=
  ((split ',' list.toList).map trimBlanks).any fun entry => !entry.isEmpty && covers entry host

/-- Whether a host is reached without the proxy. -/
def isBypassed (host list : String) : Bool :=
  !host.isEmpty && (isInternal host || listCovers list host)

/-- The list in an environment: the variable in capitals unless it is empty, or the other. -/
def listOf (lookup : String → Option String) : String :=
  (((lookup "NO_PROXY").filter (!·.isEmpty)) <|> lookup "no_proxy").getD ""

end PushBuild.Proxy
