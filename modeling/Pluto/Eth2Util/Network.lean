import Pluto.Ssz.Walker

/-!
# Networks

`network.rs`: the Ethereum networks by name and by fork version.  Test networks can be added, so that
the list of networks is an argument.
-/

namespace Pluto.Eth2Util

open Ssz

structure Network where
  chainId : UInt64
  name : String
  genesisForkVersionHex : String
  genesisTimestamp : UInt64
  deriving DecidableEq

inductive NetworkError
  | invalidName (name : String)
  | invalidForkVersion (forkVersion : String)
  | invalidGenesisTimestamp (genesisTimestamp : UInt64)
  deriving DecidableEq, Repr

namespace Network

def mainnet : Network := ⟨1, "mainnet", "0x00000000", 1606824023⟩
def goerli : Network := ⟨5, "goerli", "0x00001020", 1616508000⟩
def gnosis : Network := ⟨100, "gnosis", "0x00000064", 1638993340⟩
def chiado : Network := ⟨10200, "chiado", "0x0000006f", 1665396300⟩
def sepolia : Network := ⟨11155111, "sepolia", "0x90000069", 1655733600⟩
def holesky : Network := ⟨17000, "holesky", "0x01017000", 1696000704⟩
def hoodi : Network := ⟨560048, "hoodi", "0x10000910", 1742213400⟩

/-- `SUPPORTED_NETWORKS`, before a test network is added -/
def predefined : List Network := [mainnet, goerli, gnosis, chiado, sepolia, holesky, hoodi]

section Lookup

variable (networks : List Network)

/-- The fork versions are compared without their prefixes. -/
def fromForkVersion (forkVersion : String) : Except NetworkError Network :=
  Except.okOr
    (networks.find? fun network =>
      strip0x network.genesisForkVersionHex.toList = strip0x forkVersion.toList)
    (.invalidForkVersion forkVersion)

def forkVersionToChainId (forkVersion : Bytes) : Except NetworkError UInt64 := do
  let network ← fromForkVersion networks (String.ofList (Hex.encode forkVersion))
  return network.chainId

end Lookup

end Network

end Pluto.Eth2Util
