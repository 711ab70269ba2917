namespace All4One.Raft

inductive RaftCommand
  | registerJob (jobId nodeId runtime createdAt : String)
  | updateJobStatus (jobId status nodeId : String)
  | addMember (nodeId grpcEndpoint : String)
  | removeMember (nodeId : String)
  | storeEnrollToken (token expiresAt issuedBy : String)
  | consumeEnrollToken (token : String)
  deriving DecidableEq, Repr

structure RaftCommandResponse where
  success : Bool
  error   : Option String
  data    : Option String
  deriving DecidableEq, Repr

structure RegisteredJob where
  jobId     : String
  nodeId    : String
  runtime   : String
  status    : String
  createdAt : String
  updatedAt : String
  deriving DecidableEq, Repr

structure EnrollToken where
  token     : String
  issuedBy  : String
  expiresAt : String
  used      : Bool
  deriving DecidableEq, Repr

end All4One.Raft
