import Dfs.Library.CText

/-!
# Limits, operation and error codes of the wire protocol

The constants of `common/protocol.h` that the modelled handlers use, and the
text fields of a `Message`, each as wide as its array.
-/

namespace Dfs

/-- `char filename[MAX_FILENAME]`. -/
abbrev Filename := CString 255

/-- `char username[MAX_USERNAME]`. -/
abbrev Username := CString 63

/-- `char data[MAX_DATA_SIZE]`. -/
abbrev DataText := CString 4095

/-- `char target_path[MAX_PATH]`. -/
abbrev PathText := CString 1023

/-- `char ip[MAX_IP_LEN]`. -/
abbrev IpText := CString 15

def maxFilename : Nat := 256
def maxUsername : Nat := 64
def maxDataSize : Nat := 4096
def maxIpLen : Nat := 16
def maxPath : Nat := 1024

def msgRequest : Int := 1
def msgResponse : Int := 2
def msgAck : Int := 3
def msgError : Int := 4

def opCreate : Int := 100
def opRead : Int := 101
def opWrite : Int := 102
def opDelete : Int := 103
def opInfo : Int := 104
def opStream : Int := 105
def opList : Int := 106
def opView : Int := 107
def opAddaccess : Int := 108
def opRemaccess : Int := 109
def opExec : Int := 110
def opUndo : Int := 111
def opCreatefolder : Int := 112
def opMove : Int := 113
def opViewfolder : Int := 114
def opCheckpoint : Int := 115
def opViewcheckpoint : Int := 116
def opRevert : Int := 117
def opListcheckpoints : Int := 118
def opRequestaccess : Int := 119
def opViewrequests : Int := 120
def opApproverequest : Int := 121
def opRejectrequest : Int := 122
def opSsRegister : Int := 200
def opClientRegister : Int := 201
def opGetSsInfo : Int := 300
def opSsCreateFile : Int := 301
def opSsDeleteFile : Int := 302
def opStreamWord : Int := 303
def opStop : Int := 304
def opSsAddaccess : Int := 306
def opSsRemaccess : Int := 307
def opReadChunk : Int := 308
def opExecChunk : Int := 309

def errSuccess : Int := 0
def errFileNotFound : Int := 1001
def errAccessDenied : Int := 1002
def errSentenceLocked : Int := 1003
def errFileExists : Int := 1005
def errNotOwner : Int := 1006
def errNoWriteAccess : Int := 1007
def errNoReadAccess : Int := 1008
def errSentenceOutOfRange : Int := 1009
def errWordOutOfRange : Int := 1010
def errInvalidOperation : Int := 1011
def errServerError : Int := 1012
def errConnectionFailed : Int := 1013

def accessRead : Int := 1
def accessWrite : Int := 2

def viewFlagNone : Int := 0
def viewFlagAll : Int := 1
def viewFlagLong : Int := 2
def viewFlagAllLong : Int := 3

end Dfs
