import Mathlib.Algebra.Group.Int.Defs
import Mathlib.Algebra.Group.Nat.Defs
import Mathlib.Data.List.Basic

/-! What PowerNet uses of Open Transport: event codes, flags and error numbers.
Results arrive as 32-bit statuses; several callers keep only 16 bits of them. -/

namespace PowerBoot.PowerNet

/-- The codes the notifier tells apart. -/
inductive OTEventCode where
  | tListen | tConnect | tData | tExData | tDisconnect | tError | tUdErr | tOrdRel | tGoData | tGoExData
  | tRequest | tReply | tPassCon | tReset | tBindComplete | tUnbindComplete | tAcceptComplete
  | tReplyComplete | tDisconnectComplete | tOptMgmtComplete | tOpenComplete | tGetProtAddrComplete
  | tResolveAddrComplete | tGetInfoComplete | tSyncComplete | tMemoryReleased | tRegNameComplete
  | tDelNameComplete | tLkupNameComplete | tLkupNameResult | kOTProviderIsDisconnected | kOTSyncIdleEvent
  | kOTProviderIsReconnected | kOTProviderWillClose | kOTProviderIsClosed
  | other (code : Int)
deriving DecidableEq

/-- What OTRcv leaves in its flags, as far as the notifier looks. -/
inductive OTFlags where
  | more | expedited | acknowledged | partialData | noReceipt | timedOut | other
deriving DecidableEq

def noErr : Int := 0
def kOTFlowErr : Int := -3161
def kOTNoDataErr : Int := -3162
def kOTLookErr : Int := -3158

/-- Conversion of a status to the 16-bit OSErr. -/
def toOSErr (status : Int) : Int := status.bmod (2 ^ 16)

/-- The cases of `__throw_os_err`, with the name each one reports. -/
def osErrNames : List (Int × String) :=
  [(-3211, "kOTOutOfMemoryErr"), (-3201, "kOTNotFoundErr"), (-3216, "kOTDuplicateFoundErr"),
   (-3150, "kOTBadAddressErr"), (-3151, "kOTBadOptionErr"), (-3152, "kOTAccessErr"),
   (-3153, "kOTBadReferenceErr"), (-3154, "kOTNoAddressErr"), (-3155, "kOTOutStateErr"),
   (-3156, "kOTBadSequenceErr"), (-3157, "kOTSysErrorErr"), (-3158, "kOTLookErr"), (-3159, "kOTBadDataErr"),
   (-3160, "kOTBufferOverflowErr"), (-3161, "kOTFlowErr"), (-3162, "kOTNoDataErr"),
   (-3163, "kOTNoDisconnectErr"), (-3164, "kOTNoUDErrErr"), (-3165, "kOTBadFlagErr"), (-3166, "kOTNoReleaseErr"),
   (-3167, "kOTNotSupportedErr"), (-3168, "kOTStateChangeErr"), (-3169, "kOTNoStructureTypeErr"),
   (-3170, "kOTBadNameErr"), (-3171, "kOTBadQLenErr"), (-3172, "kOTAddressBusyErr"), (-3173, "kOTIndOutErr"),
   (-3174, "kOTProviderMismatchErr"), (-3175, "kOTResQLenErr"), (-3176, "kOTResAddressErr"),
   (-3177, "kOTQFullErr"), (-3178, "kOTProtocolErr"), (-3179, "kOTBadSyncErr"), (-3180, "kOTCanceledErr"),
   (-3200, "kEPERMErr"), (-3202, "kENORSRCErr"), (-3203, "kEINTRErr"), (-3204, "kEIOErr"), (-3205, "kENXIOErr"),
   (-3208, "kEBADFErr"), (-3210, "kEAGAINErr"), (-3212, "kEACCESErr"), (-3213, "kEFAULTErr"),
   (-3215, "kEBUSYErr"), (-3218, "kENODEVErr"), (-3221, "kEINVALErr"), (-3224, "kENOTTYErr"),
   (-3231, "kEPIPEErr"), (-3233, "kERANGEErr"), (-3234, "kEWOULDBLOCKErr or kEDEADLKErr"),
   (-3236, "kEALREADYErr"), (-3237, "kENOTSOCKErr"), (-3238, "kEDESTADDRREQErr"), (-3239, "kEMSGSIZEErr"),
   (-3240, "kEPROTOTYPEErr"), (-3241, "kENOPROTOOPTErr"), (-3242, "kEPROTONOSUPPORTErr"),
   (-3243, "kESOCKTNOSUPPORTErr"), (-3244, "kEOPNOTSUPPErr"), (-3247, "kEADDRINUSEErr"),
   (-3248, "kEADDRNOTAVAILErr"), (-3249, "kENETDOWNErr"), (-3250, "kENETUNREACHErr"), (-3251, "kENETRESETErr"),
   (-3252, "kECONNABORTEDErr"), (-3253, "kECONNRESETErr"), (-3254, "kENOBUFSErr"), (-3255, "kEISCONNErr"),
   (-3256, "kENOTCONNErr"), (-3257, "kESHUTDOWNErr"), (-3258, "kETOOMANYREFSErr"), (-3259, "kETIMEDOUTErr"),
   (-3260, "kECONNREFUSEDErr"), (-3263, "kEHOSTDOWNErr"), (-3264, "kEHOSTUNREACHErr"), (-3269, "kEPROTOErr"),
   (-3270, "kETIMEErr"), (-3271, "kENOSRErr"), (-3272, "kEBADMSGErr"), (-3273, "kECANCELErr"),
   (-3274, "kENOSTRErr"), (-3275, "kENODATAErr"), (-3276, "kEINPROGRESSErr"), (-3277, "kESRCHErr"),
   (-3278, "kENOMSGErr"), (-3279, "kOTClientNotInittedErr"), (-3280, "kOTPortHasDiedErr"),
   (-3281, "kOTPortWasEjectedErr"), (-3282, "kOTBadConfigurationErr"), (-3283, "kOTConfigurationChangedErr"),
   (-3284, "kOTUserRequestedErr"), (-3285, "kOTPortLostConnection")]

/-- The text that `__throw_os_err` reports, and nothing where no case applies. -/
def osErrFormat (err : Int) : Option String :=
  (osErrNames.lookup err).map ("Error:\n\t- Function:%s\n\t- Position:%s:%d\n\t- Error: " ++ ·)

/-- The events that the notifier only reports. -/
def unhandled : OTEventCode → Option String
  | .tListen => some "Unhandled OTLook: T_LISTEN\n"
  | .tError => some "Unhandled OTLook: T_ERROR\n"
  | .tUdErr => some "Unhandled OTLook: T_UDERR\n"
  | .tGoData => some "Unhandled OTLook: T_GODATA\n"
  | .tGoExData => some "Unhandled OTLook: T_GOEXDATA\n"
  | .tRequest => some "Unhandled OTLook: T_REQUEST\n"
  | .tReply => some "Unhandled OTLook: T_REPLY\n"
  | .tPassCon => some "Unhandled OTLook: T_PASSCON\n"
  | .tReset => some "Unhandled OTLook: T_RESET\n"
  | .tBindComplete => some "Unhandled OTLook: T_BINDCOMPLETE\n"
  | .tUnbindComplete => some "Unhandled OTLook: T_UNBINDCOMPLETE\n"
  | .tAcceptComplete => some "Unhandled OTLook: T_ACCEPTCOMPLETE\n"
  | .tReplyComplete => some "Unhandled OTLook: T_REPLYCOMPLETE\n"
  | .tDisconnectComplete => some "Unhandled OTLook: T_DISCONNECTCOMPLETE\n"
  | .tOptMgmtComplete => some "Unhandled OTLook: T_OPTMGMTCOMPLETE\n"
  | .tOpenComplete => some "Unhandled OTLook: T_OPENCOMPLETE\n"
  | .tGetProtAddrComplete => some "Unhandled OTLook: T_GETPROTADDRCOMPLETE\n"
  | .tResolveAddrComplete => some "Unhandled OTLook: T_RESOLVEADDRCOMPLETE\n"
  | .tGetInfoComplete => some "Unhandled OTLook: T_GETINFOCOMPLETE\n"
  | .tSyncComplete => some "Unhandled OTLook: T_SYNCCOMPLETE\n"
  | .tMemoryReleased => some "Unhandled OTLook: T_MEMORYRELEASED\n"
  | .tRegNameComplete => some "Unhandled OTLook: T_REGNAMECOMPLETE\n"
  | .tDelNameComplete => some "Unhandled OTLook: T_DELNAMECOMPLETE\n"
  | .tLkupNameComplete => some "Unhandled OTLook: T_LKUPNAMECOMPLETE\n"
  | .tLkupNameResult => some "Unhandled OTLook: T_LKUPNAMERESULT\n"
  | .kOTProviderIsDisconnected => some "Unhandled OTLook: kOTProviderIsDisconnected\n"
  | .kOTSyncIdleEvent => some "Unhandled OTLook: kOTSyncIdleEvent\n"
  | .kOTProviderIsReconnected => some "Unhandled OTLook: kOTProviderIsReconnected\n"
  | .kOTProviderWillClose => some "Unhandled OTLook: kOTProviderWillClose\n"
  | .kOTProviderIsClosed => some "Unhandled OTLook: kOTProviderIsClosed\n"
  | _ => none

/-- The flags the drain loop comments on. Only a time-out is an error there. -/
def OTFlags.remark : OTFlags → Option String
  | .expedited => some "T_EXPEDITED\n"
  | .acknowledged => some "T_ACKNOWLEDGED\n"
  | .partialData => some "T_PARTIALDATA\n"
  | .noReceipt => some "T_NORECEIPT\n"
  | .more | .timedOut | .other => none

end PowerBoot.PowerNet
